import MarketRelay.Proofs.Config.Validate
import MarketRelay.Proofs.Wire.Language
import MarketRelay.Wire.Stream

/-!
# Streams in portions

A connection hands over its bytes in portions that have nothing to do with frames.  A reader takes
the whole frames out of what it has after each portion and keeps the rest for the next one.  What it
gets in the end depends on the bytes alone.

* `next_append_of_item`, `next_append_of_failed`: more bytes behind a whole frame, or behind bytes
  that no frame starts with, change nothing that was found before them.
* `items_append_of_pending`, `items_append_of_failed`: the same of all frames of a buffer, by
  `buffer_induction`, which follows how the frames are taken.
* `ofChunks_alike_items`: so reading in portions is reading all at once, by induction on the
  portions for any buffer.
* `ofChunks_eq_of_flatten_eq`: two ways to cut the same bytes come to the same.
* `Stream.ofChunks_encode`: for the frames of messages there is no error, and nothing is left.

The one thing that differs is how many bytes a refusal of a size says it had seen, so errors are
compared without that number (`forgetAvailable`).
-/
namespace MarketRelay

/-- The error without the number of bytes that were at hand. -/
def DecodeError.forgetAvailable : DecodeError → DecodeError
  | .sizeMismatch declared _ limit => .sizeMismatch declared 0 limit
  | e => e

theorem DecodeError.cases_of_alike {e e' : DecodeError}
    (h : e.forgetAvailable = e'.forgetAvailable) :
    e = e' ∨ ∃ declared bound available available',
      e = .sizeMismatch declared available bound ∧
        e' = .sizeMismatch declared available' bound := by
  cases e with
  | sizeMismatch declared available bound =>
      cases e' with
      | sizeMismatch declared' available' bound' =>
          obtain ⟨rfl, -, rfl⟩ := DecodeError.sizeMismatch.inj h
          exact Or.inr ⟨declared, bound, available, available', rfl, rfl⟩
      | _ => cases h
  | _ =>
      cases e' with
      | sizeMismatch declared' available' bound' => cases h
      | _ => exact Or.inl h

theorem Header.read_append_of_ok {bs : List UInt8} {h : Header} (hread : read bs = .ok h)
    (more : List UInt8) : read (bs ++ more) = .ok h := by
  have htake := read_eq_ok_iff.mp hread
  have hlen : headerSize ≤ bs.length := by
    have := congrArg List.length htake
    rw [List.length_take, length_bytes] at this
    omega
  rw [read_eq_ok_iff, List.take_append_of_le_length hlen, htake]

namespace Stream

def Ending.forgetAvailable : Ending → Ending
  | .pending rest => .pending rest
  | .failed e => .failed e.forgetAvailable

theorem Ending.cases_of_alike {a b : Ending} (h : a.forgetAvailable = b.forgetAvailable) :
    (∃ rest, a = .pending rest ∧ b = .pending rest) ∨ (∃ e, a = .failed e ∧ b = .failed e) ∨
      ∃ declared bound available available',
        a = .failed (.sizeMismatch declared available bound) ∧
          b = .failed (.sizeMismatch declared available' bound) := by
  cases a with
  | pending rest =>
      cases b with
      | pending rest' =>
          cases h
          exact Or.inl ⟨rest, rfl, rfl⟩
      | failed e' => cases h
  | failed e =>
      cases b with
      | pending rest' => cases h
      | failed e' =>
          right
          rcases DecodeError.cases_of_alike (Ending.failed.inj h) with
            rfl | ⟨declared, bound, available, available', rfl, rfl⟩
          · exact Or.inl ⟨e, rfl, rfl⟩
          · exact Or.inr ⟨declared, bound, available, available', rfl, rfl⟩

/-- The frames that a reader takes out of portions of bytes, having kept `buffer` from earlier ones,
and how they end.  It stops for good at the first error. -/
def ofChunks (limit : Nat) : (buffer : List UInt8) → List (List UInt8) → List StreamItem × Ending
  | buffer, [] => ([], .pending buffer)
  | buffer, chunk :: chunks =>
    match items limit (buffer ++ chunk) with
    | (taken, .failed e) => (taken, .failed e)
    | (taken, .pending rest) =>
      let (more, ending) := ofChunks limit rest chunks
      (taken ++ more, ending)

/-! ## One frame -/

section Next
variable {limit : Nat} {buffer rest more : List UInt8}

theorem eq_of_next_pending (h : next limit buffer = (.pending, rest)) : rest = buffer := by
  unfold next at h
  split at h
  · cases h; rfl
  · split at h
    · cases h
    · split at h
      · cases h; rfl
      · obtain ⟨hitem, -⟩ := Prod.mk.inj h
        unfold itemOf at hitem
        split at hitem <;> cases hitem

/-- More bytes behind a whole frame change nothing. -/
theorem next_append_of_item {item : StreamItem} (h : next limit buffer = (.item item, rest)) :
    next limit (buffer ++ more) = (.item item, rest ++ more) := by
  unfold next at h ⊢
  split at h
  · cases h
  · next header hread =>
      rw [Header.read_append_of_ok hread more]
      split at h
      · cases h
      · next hfits =>
          split at h
          · cases h
          · next hlen =>
              have hle : header.size.toNat ≤ buffer.length := Nat.le_of_not_lt hlen
              obtain ⟨hitem, rfl⟩ := Prod.mk.inj h
              simp only [if_neg hfits]
              rw [if_neg (by simp; omega), List.take_append_of_le_length hle,
                List.drop_append_of_le_length hle, hitem]

theorem next_append_of_failed {e : DecodeError} (h : next limit buffer = (.failed e, rest)) :
    ∃ e' rest', next limit (buffer ++ more) = (.failed e', rest') ∧
      e'.forgetAvailable = e.forgetAvailable := by
  unfold next at h ⊢
  split at h
  · cases h
  · next header hread =>
      rw [Header.read_append_of_ok hread more]
      split at h
      · next hfits =>
          cases h
          simp only [if_pos hfits]
          exact ⟨_, _, rfl, rfl⟩
      · next hfits =>
          split at h
          · cases h
          · next hlen =>
              have hle : header.size.toNat ≤ buffer.length := Nat.le_of_not_lt hlen
              obtain ⟨hitem, rfl⟩ := Prod.mk.inj h
              simp only [if_neg hfits]
              rw [if_neg (by simp; omega), List.take_append_of_le_length hle, hitem]
              exact ⟨e, _, rfl, rfl⟩

end Next

/-! ## Whole buffers -/

section Items
variable {limit : Nat} {buffer rest : List UInt8}

theorem items_of_pending (h : next limit buffer = (.pending, rest)) :
    items limit buffer = ([], .pending rest) := by
  rw [items]
  split
  · next heq => cases h.symm.trans heq; rfl
  · next heq => cases h.symm.trans heq
  · next heq => cases h.symm.trans heq

theorem items_of_failed {e : DecodeError} (h : next limit buffer = (.failed e, rest)) :
    items limit buffer = ([], .failed e) := by
  rw [items]
  split
  · next heq => cases h.symm.trans heq
  · next heq => cases h.symm.trans heq; rfl
  · next heq => cases h.symm.trans heq

theorem items_of_item {item : StreamItem} (h : next limit buffer = (.item item, rest)) :
    items limit buffer = (item :: (items limit rest).1, (items limit rest).2) := by
  rw [items]
  split
  · next heq => cases h.symm.trans heq
  · next heq => cases h.symm.trans heq
  · next heq => cases h.symm.trans heq; rfl

/-- A property of buffers holds of all if a look at one that waits, or at one that fails, shows it,
and if it holds of a buffer whenever it holds of what a taken frame leaves. -/
theorem buffer_induction (limit : Nat) {P : List UInt8 → Prop}
    (pending : ∀ buffer, next limit buffer = (.pending, buffer) → P buffer)
    (failed : ∀ buffer e rest, next limit buffer = (.failed e, rest) → P buffer)
    (item : ∀ buffer x rest, next limit buffer = (.item x, rest) → P rest → P buffer)
    (buffer : List UInt8) : P buffer := by
  induction hlen : buffer.length using Nat.strongRecOn generalizing buffer with
  | _ n ih =>
      cases hnext : next limit buffer with
      | mk read rest =>
          cases read with
          | pending => exact pending buffer (eq_of_next_pending hnext ▸ hnext)
          | failed e => exact failed buffer e rest hnext
          | item x =>
              have hlt : rest.length < n := hlen ▸ length_next_lt hnext
              exact item buffer x rest hnext (ih rest.length hlt rest rfl)

theorem items_rest : ∀ (buffer : List UInt8) {xs : List StreamItem} {rest : List UInt8},
    items limit buffer = (xs, .pending rest) → items limit rest = ([], .pending rest) := by
  refine buffer_induction limit ?_ ?_ ?_
  · intro buffer hnext xs rest h
    rw [items_of_pending hnext] at h
    cases h
    exact items_of_pending hnext
  · intro buffer e _ hnext xs rest h
    rw [items_of_failed hnext] at h
    cases h
  · intro buffer x rest' hnext ih xs rest h
    rw [items_of_item hnext] at h
    obtain ⟨-, hending⟩ := Prod.mk.inj h
    exact ih (Prod.ext rfl hending)

theorem items_append_of_pending (more : List UInt8) :
    ∀ (buffer : List UInt8) {xs : List StreamItem} {rest : List UInt8},
      items limit buffer = (xs, .pending rest) →
        items limit (buffer ++ more)
          = (xs ++ (items limit (rest ++ more)).1, (items limit (rest ++ more)).2) := by
  refine buffer_induction limit ?_ ?_ ?_
  · intro buffer hnext xs rest h
    rw [items_of_pending hnext] at h
    cases h
    rfl
  · intro buffer e _ hnext xs rest h
    rw [items_of_failed hnext] at h
    cases h
  · intro buffer x rest' hnext ih xs rest h
    rw [items_of_item hnext] at h
    obtain ⟨rfl, hending⟩ := Prod.mk.inj h
    rw [items_of_item (next_append_of_item hnext), ih (Prod.ext rfl hending), List.cons_append]

theorem items_append_of_failed (more : List UInt8) :
    ∀ (buffer : List UInt8) {xs : List StreamItem} {e : DecodeError},
      items limit buffer = (xs, .failed e) →
        ∃ e', items limit (buffer ++ more) = (xs, .failed e') ∧
          e'.forgetAvailable = e.forgetAvailable := by
  refine buffer_induction limit ?_ ?_ ?_
  · intro buffer hnext xs e h
    rw [items_of_pending hnext] at h
    cases h
  · intro buffer e _ hnext xs e h
    rw [items_of_failed hnext] at h
    cases h
    obtain ⟨e', _, hmore, halike⟩ := next_append_of_failed hnext
    exact ⟨e', items_of_failed hmore, halike⟩
  · intro buffer x rest' hnext ih xs e h
    rw [items_of_item hnext] at h
    obtain ⟨rfl, hending⟩ := Prod.mk.inj h
    obtain ⟨e', hmore, halike⟩ := ih (Prod.ext rfl hending)
    exact ⟨e', by rw [items_of_item (next_append_of_item hnext), hmore], halike⟩

end Items

/-! ## Portions -/

/-- Reading in portions is reading all at once. -/
theorem ofChunks_alike_items (limit : Nat) (chunks : List (List UInt8)) :
    ∀ buffer : List UInt8, items limit buffer = ([], .pending buffer) →
      (ofChunks limit buffer chunks).1 = (items limit (buffer ++ chunks.flatten)).1 ∧
        (ofChunks limit buffer chunks).2.forgetAvailable
          = (items limit (buffer ++ chunks.flatten)).2.forgetAvailable := by
  induction chunks with
  | nil =>
      intro buffer hbuffer
      rw [List.flatten_nil, List.append_nil, hbuffer]
      exact ⟨rfl, rfl⟩
  | cons chunk chunks ih =>
      intro buffer _
      rw [ofChunks, List.flatten_cons, ← List.append_assoc]
      cases hitems : items limit (buffer ++ chunk) with
      | mk taken ending =>
          cases ending with
          | pending rest =>
              obtain ⟨hmore, hending⟩ := ih rest (items_rest _ hitems)
              rw [items_append_of_pending _ _ hitems]
              exact ⟨congrArg (taken ++ ·) hmore, hending⟩
          | failed e =>
              obtain ⟨e', hmore, halike⟩ := items_append_of_failed chunks.flatten _ hitems
              rw [hmore]
              exact ⟨rfl, congrArg Ending.failed halike.symm⟩

theorem items_nil (limit : Nat) : items limit [] = ([], .pending []) :=
  items_of_pending (by simp [next, Header.read, headerSize])

/-- However the same bytes are cut, a reader takes the same frames out of them and ends in the same
way: it waits with the same bytes left over, or it stops at the same place for the same error.  Only
where a size is refused may the errors differ, in the number of bytes that were at hand. -/
theorem ofChunks_eq_of_flatten_eq (limit : Nat) {chunks chunks' : List (List UInt8)}
    (h : chunks.flatten = chunks'.flatten) :
    (ofChunks limit [] chunks).1 = (ofChunks limit [] chunks').1 ∧
      ((∃ rest, (ofChunks limit [] chunks).2 = .pending rest ∧
          (ofChunks limit [] chunks').2 = .pending rest) ∨
        (∃ e, (ofChunks limit [] chunks).2 = .failed e ∧
          (ofChunks limit [] chunks').2 = .failed e) ∨
        ∃ declared bound available available',
          (ofChunks limit [] chunks).2 = .failed (.sizeMismatch declared available bound) ∧
            (ofChunks limit [] chunks').2 =
              .failed (.sizeMismatch declared available' bound)) := by
  obtain ⟨htaken, hending⟩ := ofChunks_alike_items limit chunks [] (items_nil limit)
  obtain ⟨htaken', hending'⟩ := ofChunks_alike_items limit chunks' [] (items_nil limit)
  rw [h] at htaken hending
  exact ⟨htaken.trans htaken'.symm, Ending.cases_of_alike (hending.trans hending'.symm)⟩

/-- A sign of life, a frame with an unknown tag and a size beyond every limit: all at once, and cut
inside both headers and right behind the refused size, where two bytes less are at hand. -/
theorem ofChunks_eq_of_flatten_eq_refused :
    let heartbeat : Message := .heartbeat ⟨7, -1⟩
    let unknown : List UInt8 := [6, 0, 0xff, 0xff, 1, 2]
    let refused : List UInt8 := [0xff, 0xff, 3, 0]
    let bytes := heartbeat.encode ++ unknown ++ refused ++ [8, 9]
    let chunks := [bytes.take 3, bytes.drop 3 |>.take 15, [], bytes.drop 18 |>.take 8, [8, 9]]
    let taken : List StreamItem := [.message heartbeat, .unknown 0xffff 6]
    chunks.flatten = [bytes].flatten ∧
      (ofChunks 4096 [] chunks).1 = (ofChunks 4096 [] [bytes]).1 ∧
      ofChunks 4096 [] chunks = (taken, .failed (.sizeMismatch 65535 4 4096)) ∧
      ofChunks 4096 [] [bytes] = (taken, .failed (.sizeMismatch 65535 6 4096)) := by
  intro heartbeat unknown refused bytes chunks taken
  have hflatten : chunks.flatten = [bytes].flatten := by decide +kernel
  exact ⟨hflatten, (ofChunks_eq_of_flatten_eq 4096 hflatten).1, by decide +kernel,
    by decide +kernel⟩

/-! ## Streams of messages -/

theorem next_encode_append {limit : Nat} {m : Message} (h : m.frameSize ≤ limit)
    (more : List UInt8) :
    next limit (m.encode ++ more) = (.item (.message m.norm), more) := by
  have hread : Header.read (m.encode ++ more) = .ok m.header := by
    rw [Message.encode, List.append_assoc, Header.read_append]
  have hfits : m.header.fits limit = true := by
    simp [Header.fits, m.toNat_size_header, m.headerSize_le_frameSize, h]
  have hlen : ¬ (m.encode ++ more).length < m.frameSize := by
    rw [List.length_append, m.length_encode]
    omega
  simp only [next, hread, hfits, m.toNat_size_header, if_neg hlen, Bool.not_true,
    Bool.false_eq_true, if_false, List.take_left' m.length_encode,
    List.drop_left' m.length_encode, Message.decode_encode h, itemOf]

theorem items_encode {limit : Nat} (ms : List Message) (h : ∀ m ∈ ms, m.frameSize ≤ limit) :
    items limit (ms.flatMap Message.encode)
      = (ms.map fun m => .message m.norm, .pending []) := by
  induction ms with
  | nil => exact items_nil limit
  | cons m ms ih =>
      have htail := ih fun m' hm' => h m' (List.mem_cons_of_mem m hm')
      rw [List.flatMap_cons, items_of_item (next_encode_append (h m List.mem_cons_self) _), htail]
      rfl

end Stream

/-- Under settings that a relay can run with, messages that are sent one after another arrive one
after another, whatever the portions in which their frames come: no error, nothing left over, and
every message as `norm` has it, which is the message with its texts shortened to their fields and
before their first NUL, and the message itself when its texts are free of NULs and fit. -/
theorem Stream.ofChunks_encode {c : Config} (hc : c.validate = .ok ()) (ms : List Message)
    {chunks : List (List UInt8)} (hchunks : chunks.flatten = ms.flatMap Message.encode) :
    ofChunks c.maxMessageSize [] chunks = (ms.map fun m => .message m.norm, .pending []) ∧
      ∀ m ∈ ms, m.Shortens m.norm ∧ (m.Fits → m.norm = m) := by
  refine ⟨?_, fun m _ => ⟨m.shortens_norm, Message.norm_eq_self⟩⟩
  have hitems := items_encode ms fun m _ => Config.frameSize_le_maxMessageSize hc m
  obtain ⟨htaken, hending⟩ := ofChunks_alike_items c.maxMessageSize chunks [] (items_nil _)
  rw [List.nil_append, hchunks, hitems] at htaken hending
  refine Prod.ext htaken ?_
  cases hchunked : (ofChunks c.maxMessageSize [] chunks).2 with
  | pending rest =>
      rw [hchunked] at hending
      exact hending
  | failed e =>
      rw [hchunked] at hending
      cases hending

/-- A logon whose user's name has no room for its last character and whose password goes on behind a
NUL, then a sign of life: cut inside the first header, by nothing, and inside the second frame. -/
theorem Stream.ofChunks_logon_heartbeat :
    let logon : LogonRequest := ⟨8, "a-name-with-thirty-one-bytes-anä", "pass\x00word", 30, "ñ"⟩
    let sent : List Message := [.logonRequest logon, .heartbeat ⟨0, -1⟩]
    let bytes := sent.flatMap Message.encode
    let chunks := [bytes.take 3, [], (bytes.drop 3).take 110, bytes.drop 113]
    Config.validate {} = .ok () ∧ chunks.flatten = bytes ∧
      ofChunks 4096 [] chunks =
        ([.message (.logonRequest
            { logon with username := "a-name-with-thirty-one-bytes-an", password := "pass" }),
          .message (.heartbeat ⟨0, -1⟩)], .pending []) := by
  intro logon sent bytes chunks
  have hchunks : chunks.flatten = bytes := by decide +kernel
  have hread := (ofChunks_encode (c := {}) rfl sent hchunks).1
  exact ⟨rfl, hchunks, hread.trans (by decide +kernel)⟩

end MarketRelay
