import P2pDdns.WireFormats

/-!
Bytes that arrive in pieces: reading up to, and exactly, so many of them, and payloads sent one
behind the other, each with its length in front.
-/

set_option autoImplicit false

namespace Streams
open WireFormats

/-- The pieces in which a peer's bytes arrive, up to the end of the connection. -/
abbrev Stream := List (List UInt8)

/-- A piece that is larger than the buffer is not taken at once. At the end nothing is read. -/
def read (size : Nat) : Stream → List UInt8 × Stream
  | [] => ([], [])
  | piece :: pieces =>
    if piece.length ≤ size then (piece, pieces) else (piece.take size, piece.drop size :: pieces)

def Flowing (stream : Stream) : Prop := ∀ piece ∈ stream, piece ≠ []

section Read
variable {size : Nat} {stream : Stream}

theorem read_append (size : Nat) (stream : Stream) :
    (read size stream).1 ++ (read size stream).2.flatten = stream.flatten := by
  cases stream with
  | nil => rfl
  | cons piece pieces =>
    rw [read]
    split
    · rfl
    · simp [← List.append_assoc]

theorem read_flowing (h : Flowing stream) : Flowing (read size stream).2 := by
  cases stream with
  | nil => exact h
  | cons piece pieces =>
    obtain ⟨hpiece, hpieces⟩ := List.forall_mem_cons.mp h
    rw [read]
    split
    · exact hpieces
    · rename_i hlarge
      refine List.forall_mem_cons.mpr ⟨fun hnil => ?_, hpieces⟩
      have hlen := congrArg List.length hnil
      simp only [List.length_drop, List.length_nil] at hlen
      omega

theorem length_read_le (size : Nat) (stream : Stream) : (read size stream).1.length ≤ size := by
  cases stream with
  | nil => exact Nat.zero_le size
  | cons piece pieces =>
    rw [read]
    split
    · assumption
    · exact List.length_take_le size piece

theorem read_eq_nil_iff (h : Flowing stream) (hsize : 0 < size) :
    (read size stream).1 = [] ↔ stream.flatten = [] := by
  cases stream with
  | nil => simp [read]
  | cons piece pieces =>
    have hpiece : piece ≠ [] := h piece List.mem_cons_self
    rw [read, List.flatten_cons]
    split
    · simp [hpiece]
    · simp [hpiece, Nat.ne_of_gt hsize]

/-- What one read does: it takes the front of what is left, nothing only at the end. -/
theorem read_spec (h : Flowing stream) (hsize : 0 < size) :
    ∃ chunk rest, read size stream = (chunk, rest) ∧ chunk ++ rest.flatten = stream.flatten ∧
      chunk.length ≤ size ∧ Flowing rest ∧ (chunk = [] ↔ stream.flatten = []) :=
  ⟨_, _, rfl, read_append size stream, length_read_le size stream, read_flowing h,
    read_eq_nil_iff h hsize⟩

end Read

def readLoop : Nat → Nat → Stream → Option (List UInt8 × Stream)
  | _, 0, stream => some ([], stream)
  | 0, _+1, _ => none
  | fuel+1, size+1, stream =>
    let found := read (size+1) stream
    if found.1 = [] then none
    else (readLoop fuel (size + 1 - found.1.length) found.2).map fun rest =>
      (found.1 ++ rest.1, rest.2)

def readExact (size : Nat) (stream : Stream) : Option (List UInt8 × Stream) :=
  readLoop size size stream

theorem readLoop_spec {fuel size : Nat} {stream : Stream} (hflow : Flowing stream)
    (hfuel : size ≤ fuel) :
    if size ≤ stream.flatten.length then
      ∃ rest, readLoop fuel size stream = some (stream.flatten.take size, rest) ∧
        rest.flatten = stream.flatten.drop size ∧ Flowing rest
    else readLoop fuel size stream = none := by
  induction fuel generalizing size stream with
  | zero =>
    obtain rfl : size = 0 := by omega
    rw [if_pos (Nat.zero_le _)]
    exact ⟨stream, rfl, rfl, hflow⟩
  | succ fuel ih =>
    cases size with
    | zero =>
      rw [if_pos (Nat.zero_le _)]
      exact ⟨stream, rfl, rfl, hflow⟩
    | succ size =>
      obtain ⟨chunk, left, hread, happend, hle, hleft, hnil⟩ :=
        read_spec hflow (Nat.succ_pos size)
      rw [readLoop, hread]
      dsimp only
      by_cases hempty : chunk = []
      · have hend : stream.flatten = [] := hnil.mp hempty
        simp [hempty, hend]
      · have hpos := List.length_pos_of_ne_nil hempty
        have hlater := @ih (size + 1 - chunk.length) left hleft (by omega)
        have hlength : stream.flatten.length = chunk.length + left.flatten.length := by
          rw [← happend, List.length_append]
        rw [if_neg hempty]
        split
        · rename_i hsize
          rw [if_pos (by omega)] at hlater
          obtain ⟨rest, hread, hflat, hflowing⟩ := hlater
          refine ⟨rest, ?_, ?_, hflowing⟩
          · rw [hread, ← happend, List.take_append, List.take_of_length_le hle]
            rfl
          · rw [hflat, ← happend, List.drop_append, List.drop_of_length_le hle, List.nil_append]
        · rename_i hsize
          rw [if_neg (by omega)] at hlater
          rw [hlater]
          rfl

theorem readExact_append {size : Nat} {stream : Stream} {front back : List UInt8}
    (hflow : Flowing stream) (hbytes : stream.flatten = front ++ back)
    (hsize : front.length = size) :
    ∃ rest, readExact size stream = some (front, rest) ∧ rest.flatten = back ∧ Flowing rest := by
  have hspec := readLoop_spec hflow (Nat.le_refl size)
  rw [if_pos (by simp [hbytes, hsize])] at hspec
  rwa [hbytes, List.take_left' hsize, List.drop_left' hsize] at hspec

def singles (bytes : List UInt8) : Stream := bytes.map fun b => [b]

theorem flowing_singles (bytes : List UInt8) : Flowing (singles bytes) :=
  List.forall_mem_map.mpr fun _ _ => by simp

theorem flatten_singles (bytes : List UInt8) : (singles bytes).flatten = bytes := by
  induction bytes with
  | nil => rfl
  | cons b bytes ih =>
    have hcons : singles (b :: bytes) = [b] :: singles bytes := rfl
    rw [hcons, List.flatten_cons, ih, List.singleton_append]

def jump (front size : Nat) (bytes : List UInt8) : Stream :=
  singles (bytes.take front) ++ (bytes.drop front).take size :: singles (bytes.drop (front + size))

theorem flowing_jump {front size : Nat} {bytes : List UInt8} (hfront : front < bytes.length)
    (hsize : 0 < size) : Flowing (jump front size bytes) := by
  refine List.forall_mem_append.mpr ⟨flowing_singles _, List.forall_mem_cons.mpr
    ⟨fun hnil => ?_, flowing_singles _⟩⟩
  have hlen := congrArg List.length hnil
  rw [List.length_take, List.length_drop, List.length_nil] at hlen
  omega

theorem flatten_jump (front size : Nat) (bytes : List UInt8) :
    (jump front size bytes).flatten = bytes := by
  rw [jump, List.flatten_append, List.flatten_cons, flatten_singles, flatten_singles,
    ← List.drop_drop, List.take_append_drop, List.take_append_drop]

/-! Frames. -/

/-- A length in front of a payload, and the largest one the reader takes. A length that the
prefix cannot hold is read as a smaller one. -/
structure Framing where
  width : Nat
  writeLength : Nat → List UInt8
  readLength : List UInt8 → Nat
  limit : Nat
  tooLarge : Nat → String
  length_writeLength : ∀ n, (writeLength n).length = width
  readLength_le : ∀ n, readLength (writeLength n) ≤ n
  readLength_writeLength : ∀ n, n ≤ limit → readLength (writeLength n) = n

inductive FrameError where
  | closed
  | tooLarge (message : String)
  | malformed
  deriving DecidableEq, Repr

namespace Framing
variable (framing : Framing)

def frame (payload : List UInt8) : List UInt8 := framing.writeLength payload.length ++ payload

def readFrame (stream : Stream) : Except FrameError (List UInt8 × Stream) :=
  match readExact framing.width stream with
  | none => .error .closed
  | some (head, rest) =>
    if framing.readLength head > framing.limit then
      .error (.tooLarge (framing.tooLarge (framing.readLength head)))
    else
      match readExact (framing.readLength head) rest with
      | none => .error .closed
      | some found => .ok found

variable {framing} {stream rest : Stream} {payload back bytes : List UInt8}

theorem readFrame_frame (hflow : Flowing stream)
    (hbytes : stream.flatten = framing.frame payload ++ back)
    (hlimit : payload.length ≤ framing.limit) :
    ∃ rest, framing.readFrame stream = .ok (payload, rest) ∧ rest.flatten = back ∧
      Flowing rest := by
  rw [frame, List.append_assoc] at hbytes
  obtain ⟨rest, hread, hrest, hflow⟩ := readExact_append hflow hbytes (framing.length_writeLength _)
  obtain ⟨rest', hread', hrest', hflow'⟩ := readExact_append hflow hrest rfl
  refine ⟨rest', ?_, hrest', hflow'⟩
  simp only [readFrame, hread, framing.readLength_writeLength _ hlimit]
  rw [if_neg (by omega), hread']

theorem readExact_short {size : Nat} (hflow : Flowing stream) (h : stream.flatten.length < size) :
    readExact size stream = none := by
  have hspec := readLoop_spec hflow (Nat.le_refl size)
  rwa [if_neg (by omega)] at hspec

theorem readFrame_short (hflow : Flowing stream) (hbytes : stream.flatten <+: framing.frame payload)
    (hshort : stream.flatten.length < (framing.frame payload).length)
    (hlimit : payload.length ≤ framing.limit) : framing.readFrame stream = .error .closed := by
  have hwidth := framing.length_writeLength payload.length
  rcases Nat.lt_or_ge stream.flatten.length framing.width with hhead | hhead
  · rw [readFrame, readExact_short hflow hhead]
  · obtain ⟨front, hfront⟩ : framing.writeLength payload.length <+: stream.flatten := by
      refine List.prefix_of_prefix_length_le (List.prefix_append _ payload) hbytes ?_
      rwa [hwidth]
    obtain ⟨rest, hread, hrest, hflow'⟩ := readExact_append hflow hfront.symm hwidth
    have hlength : rest.flatten.length < payload.length := by
      rw [frame, ← hfront, List.length_append, List.length_append] at hshort
      rw [hrest]
      omega
    simp only [readFrame, hread, framing.readLength_writeLength _ hlimit]
    rw [if_neg (by omega), readExact_short hflow' hlength]

theorem readFrame_ok (hflow : Flowing stream)
    (hbytes : stream.flatten = framing.frame payload ++ back)
    (h : framing.readFrame stream = .ok (bytes, rest)) :
    ∃ size, size ≤ payload.length ∧ size ≤ framing.limit ∧ bytes = (payload ++ back).take size ∧
      rest.flatten = (payload ++ back).drop size := by
  rw [frame, List.append_assoc] at hbytes
  obtain ⟨stream', hread, hrest, hflow'⟩ :=
    readExact_append hflow hbytes (framing.length_writeLength _)
  have hle := framing.readLength_le payload.length
  have hspec := readLoop_spec hflow'
    (Nat.le_refl (framing.readLength (framing.writeLength payload.length)))
  rw [if_pos (by rw [hrest, List.length_append]; omega), hrest] at hspec
  obtain ⟨found, hfound, hflat, -⟩ := hspec
  simp only [readFrame, hread] at h
  split at h
  · contradiction
  · rename_i hlimit
    rw [readExact, hfound, Except.ok.injEq, Prod.mk.injEq] at h
    obtain ⟨rfl, rfl⟩ := h
    exact ⟨_, hle, by omega, rfl, hflat⟩

/-- A frame is read back exactly if its payload is within the limit. -/
theorem readFrame_iff (hflow : Flowing stream)
    (hbytes : stream.flatten = framing.frame payload ++ back) :
    (∃ rest, framing.readFrame stream = .ok (payload, rest)) ↔
      payload.length ≤ framing.limit := by
  constructor
  · rintro ⟨rest, h⟩
    obtain ⟨size, -, hlimit, hpayload, -⟩ := readFrame_ok hflow hbytes h
    have hlen := congrArg List.length hpayload
    rw [List.length_take] at hlen
    omega
  · intro hlimit
    obtain ⟨rest, h, -⟩ := readFrame_frame hflow hbytes hlimit
    exact ⟨rest, h⟩

end Framing

/-! Values in frames, each in a format of its own. -/

structure Sent where
  {α : Type}
  format : Format α
  value : α

def Sent.bytes (sent : Sent) : List UInt8 := sent.format.write sent.value

/-- Every read gets the value that was sent and leaves the bytes of the others. -/
def Arrives (send : Sent → List UInt8)
    (read : (sent : Sent) → Stream → Except FrameError (sent.α × Stream)) :
    List Sent → Stream → Prop
  | [], _ => True
  | sent :: others, stream =>
    ∃ rest, read sent stream = .ok (sent.value, rest) ∧ rest.flatten = others.flatMap send ∧
      Arrives send read others rest

section Messages
variable {α : Type} (framing : Framing) (format : Format α)

def sendMessage (value : α) : List UInt8 := framing.frame (format.write value)

def readMessage (stream : Stream) : Except FrameError (α × Stream) :=
  match framing.readFrame stream with
  | .error e => .error e
  | .ok (bytes, rest) =>
    match format.decode bytes with
    | none => .error .malformed
    | some value => .ok (value, rest)

def Framing.send (sent : Sent) : List UInt8 := sendMessage framing sent.format sent.value

def Framing.receive (sent : Sent) : Stream → Except FrameError (sent.α × Stream) :=
  readMessage framing sent.format

variable {framing format} {stream rest : Stream} {value : α} {sent : List Sent}
  {back : List UInt8}

theorem readMessage_sendMessage (hflow : Flowing stream)
    (hbytes : stream.flatten = sendMessage framing format value ++ back)
    (hlimit : (format.write value).length ≤ framing.limit) :
    ∃ rest, readMessage framing format stream = .ok (value, rest) ∧ rest.flatten = back ∧
      Flowing rest := by
  obtain ⟨rest, hread, hrest, hflow'⟩ := Framing.readFrame_frame hflow hbytes hlimit
  refine ⟨rest, ?_, hrest, hflow'⟩
  rw [readMessage, hread]
  dsimp only
  rw [format.decode_write]

theorem readMessage_fits {found : α} (hflow : Flowing stream)
    (hbytes : stream.flatten = sendMessage framing format value ++ back)
    (h : readMessage framing format stream = .ok (found, rest)) (hrest : rest.flatten = back) :
    (format.write value).length ≤ framing.limit := by
  unfold readMessage at h
  cases hread : framing.readFrame stream with
  | error e => simp [hread] at h
  | ok result =>
    obtain ⟨bytes, rest'⟩ := result
    simp only [hread] at h
    split at h
    · contradiction
    · obtain ⟨-, rfl⟩ := Prod.mk.inj (Except.ok.inj h)
      obtain ⟨size, hsize, hlimit, -, hflat⟩ := Framing.readFrame_ok hflow hbytes hread
      have hlen := congrArg List.length (hflat.symm.trans hrest)
      rw [List.length_drop, List.length_append] at hlen
      omega

theorem readMessage_nil (hwidth : 0 < framing.width) (hflow : Flowing stream)
    (hempty : stream.flatten = []) : readMessage framing format stream = .error .closed := by
  have hshort : stream.flatten.length < framing.width := by rwa [hempty]
  simp only [readMessage, Framing.readFrame, Framing.readExact_short hflow hshort]

/-- A message is read whole, or not at all if it is only partly there. -/
theorem readMessage_of_prefix {tail : List UInt8} (hflow : Flowing stream)
    (hbytes : stream.flatten <+: sendMessage framing format value ++ tail)
    (hlimit : (format.write value).length ≤ framing.limit) :
    (∃ rest, readMessage framing format stream = .ok (value, rest) ∧ Flowing rest ∧
      rest.flatten <+: tail) ∨
      readMessage framing format stream = .error .closed := by
  have hframe : sendMessage framing format value <+: sendMessage framing format value ++ tail :=
    List.prefix_append _ tail
  rcases Nat.lt_or_ge stream.flatten.length (sendMessage framing format value).length with
    hshort | hwhole
  · right
    have hpart := List.prefix_of_prefix_length_le hbytes hframe (by omega)
    rw [readMessage, Framing.readFrame_short hflow hpart hshort hlimit]
  · left
    obtain ⟨back, hback⟩ := List.prefix_of_prefix_length_le hframe hbytes hwhole
    obtain ⟨rest, hread, hrest, hflow'⟩ := readMessage_sendMessage hflow hback.symm hlimit
    refine ⟨rest, hread, hflow', ?_⟩
    rwa [hrest, ← List.prefix_append_right_inj (sendMessage framing format value), hback]

theorem arrives_iff (framing : Framing) (hflow : Flowing stream)
    (hbytes : stream.flatten = sent.flatMap framing.send) :
    Arrives framing.send framing.receive sent stream ↔
      ∀ s ∈ sent, s.bytes.length ≤ framing.limit := by
  induction sent generalizing stream with
  | nil => exact iff_of_true trivial (by simp)
  | cons s others ih =>
    rw [List.flatMap_cons] at hbytes
    rw [List.forall_mem_cons]
    constructor
    · rintro ⟨rest, hread, hrest, hothers⟩
      have hfits := readMessage_fits hflow hbytes hread hrest
      obtain ⟨rest', hread', hrest', hflow'⟩ := readMessage_sendMessage hflow hbytes hfits
      have hsame : rest = rest' := by
        have heq := hread.symm.trans hread'
        exact (Prod.mk.inj (Except.ok.inj heq)).2
      subst hsame
      exact ⟨hfits, (ih hflow' hrest).mp hothers⟩
    · rintro ⟨hfits, hothers⟩
      obtain ⟨rest, hread, hrest, hflow'⟩ := readMessage_sendMessage hflow hbytes hfits
      exact ⟨rest, hread, hrest, (ih hflow' hrest).mpr hothers⟩

theorem forall_arrives_iff (framing : Framing) (sent : List Sent) :
    (∀ stream, Flowing stream → stream.flatten = sent.flatMap framing.send →
        Arrives framing.send framing.receive sent stream) ↔
      ∀ s ∈ sent, s.bytes.length ≤ framing.limit := by
  constructor
  · intro h
    have hflow : Flowing (singles (sent.flatMap framing.send)) := flowing_singles _
    exact (arrives_iff framing hflow (flatten_singles _)).mp (h _ hflow (flatten_singles _))
  · intro h stream hflow hbytes
    exact (arrives_iff framing hflow hbytes).mpr h

end Messages
end Streams
