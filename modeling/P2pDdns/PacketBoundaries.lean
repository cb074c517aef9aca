import P2pDdns.HttpMessages

/-!
Whether it shows in a request where the bytes of its connection were cut into packets.
-/

set_option autoImplicit false

namespace P2pDdns
open Std TextLines HeaderBlocks Streams

/-! What a header says. -/

def fieldValue (name : String) (lines : List String) : Option String :=
  (((lines.takeWhile fun line => !line.isEmpty).filterMap (splitOnce ':')).reverse.find? fun f =>
    toAsciiLowercase (trim f.1) = name).map fun f => trim f.2

/-- So many bytes of body, none if there is no field about them. -/
def DeclaresLength (head : List UInt8) (len : Nat) : Prop :=
  ∃ text, decode head = some text ∧
    match fieldValue "content-length" (splitLines text).tail with
    | some value => parseUnsigned UInt64.size value = .ok len
    | none => len = 0

section Head
variable {head : List UInt8} {text : String} {len : Nat}

theorem getElem?_readHeaders (name : String) (lines : List String)
    (headers : ExtTreeMap String String) :
    (readHeaders lines headers)[name]? = (fieldValue name lines).or headers[name]? := by
  induction lines generalizing headers with
  | nil => rfl
  | cons line lines ih =>
    rw [readHeaders]
    cases hblank : line.isEmpty with
    | true => simp [fieldValue, hblank]
    | false =>
      cases hsplit : splitOnce ':' line with
      | none => simp [ih, fieldValue, hblank, hsplit]
      | some f =>
        have hvalue : fieldValue name (line :: lines) = (fieldValue name lines).or
            (if toAsciiLowercase (trim f.1) = name then some (trim f.2) else none) := by
          simp only [fieldValue, hblank, Bool.not_false, List.takeWhile_cons_of_pos,
            List.filterMap_cons, hsplit, List.reverse_cons, List.find?_append, Option.map_or,
            List.find?_singleton, decide_eq_true_eq]
          split <;> rfl
        simp only [Bool.false_eq_true, if_false, ih, hvalue, Option.or_assoc,
          ExtTreeMap.getElem?_insert, LawfulEqOrd.compare_eq_iff_eq]
        split <;> rfl

theorem parseHead_eq (text : String) : ∃ requestHead, parseHead text = .ok requestHead ∧
    requestHead.headers = readHeaders (splitLines text).tail ∅ := by
  unfold parseHead
  split
  · rename_i hnil
    rw [splitLines, List.map_eq_nil_iff] at hnil
    exact absurd hnil (splitPair_ne_nil _ _ _)
  · rename_i hlines
    exact ⟨_, rfl, by rw [hlines, List.tail_cons]⟩

theorem contentLen_iff {requestHead : RequestHead} (hparse : parseHead text = .ok requestHead) :
    requestHead.contentLen = .ok len ↔
      match fieldValue "content-length" (splitLines text).tail with
      | some value => parseUnsigned UInt64.size value = .ok len
      | none => len = 0 := by
  obtain ⟨requestHead', hparse', hheaders⟩ := parseHead_eq text
  obtain rfl := Except.ok.inj (hparse.symm.trans hparse')
  rw [RequestHead.contentLen, hheaders, getElem?_readHeaders]
  cases fieldValue "content-length" (splitLines text).tail with
  | some value => rfl
  | none => simp [eq_comm]

end Head

/-! What is read, from the bytes alone. -/

def requestOf (bytes : List UInt8) : Except HttpError HttpRequest :=
  match position blankLine bytes with
  | none =>
    .error (.bail (if 64 * 1024 < bytes.length then "request headers too large"
      else "connection closed"))
  | some n =>
    if 64 * 1024 + 1024 < n + 4 then .error (.bail "request headers too large")
    else
      match parseDeclared (bytes.take (n + 4)) with
      | .error e => .error e
      | .ok (head, contentLen) =>
        if contentLen ≤ (bytes.drop (n + 4)).length then
          .ok { toRequestHead := head, body := (bytes.drop (n + 4)).take contentLen }
        else .error (.bail "connection closed while reading body")

/-- The header ends clearly within its limit or clearly beyond it, and no more bytes follow it
than it declares, unless that is more than the read of a header's end can bring. -/
def Steady (bytes : List UInt8) : Prop :=
  ∀ n, position blankLine bytes = some n →
    64 * 1024 + 1024 < n + 4 ∨
      n + 4 ≤ 64 * 1024 + 1 ∧
        ∀ len, DeclaresLength (bytes.take (n + 4)) len → len < 1023 → bytes.length ≤ n + 4 + len

theorem parseDeclared_cases (head : List UInt8) :
    (∃ e, parseDeclared head = .error e ∧ e ≠ .bail "request headers too large") ∨
    ∃ requestHead len, parseDeclared head = .ok (requestHead, len) ∧
      requestHead.contentLen = .ok len ∧ DeclaresLength head len := by
  unfold parseDeclared
  cases hdecode : decode head with
  | none => exact .inl ⟨_, rfl, by simp⟩
  | some text =>
    obtain ⟨requestHead, hparse, -⟩ := parseHead_eq text
    simp only [hparse]
    cases hlen : requestHead.contentLen with
    | error e => exact .inl ⟨_, rfl, by simp⟩
    | ok len =>
      dsimp only
      split
      · exact .inl ⟨_, rfl, by simp⟩
      · exact .inr ⟨requestHead, len, rfl, hlen, text, hdecode, (contentLen_iff hparse).mp hlen⟩

theorem DeclaresLength.parse {head : List UInt8} {len : Nat} (h : DeclaresLength head len)
    (hsmall : len ≤ MAX_BODY_SIZE) :
    ∃ requestHead, parseDeclared head = .ok (requestHead, len) := by
  obtain ⟨text, hdecode, hvalue⟩ := h
  obtain ⟨requestHead, hparse, -⟩ := parseHead_eq text
  have hlen := (contentLen_iff hparse).mpr hvalue
  refine ⟨requestHead, ?_⟩
  simp only [parseDeclared, hdecode, hparse, hlen]
  exact if_neg (Nat.not_lt.mpr hsmall)

theorem readHead_refused {reads : Nat} {buf : List UInt8} {stream : Stream}
    (hflow : Flowing stream) (hbuf : buf.length ≤ 64 * 1024)
    (hreads : 64 * 1024 < buf.length + reads) (hnone : position blankLine buf = none)
    (hfar : ∀ n, position blankLine (buf ++ stream.flatten) = some n →
      64 * 1024 + 1024 < n + 4) :
    readHead reads buf stream =
      .error (.bail (if 64 * 1024 < (buf ++ stream.flatten).length then
        "request headers too large" else "connection closed")) := by
  induction reads generalizing buf stream with
  | zero => omega
  | succ reads ih =>
    obtain ⟨chunk, left, hread, happend, hle, hflow', hnil⟩ :=
      read_spec hflow (show 0 < 1024 by decide)
    rw [readHead, hread]
    dsimp only
    by_cases hempty : chunk = []
    · have hend : stream.flatten = [] := hnil.mp hempty
      rw [if_pos hempty, hend, List.append_nil, if_neg (by omega)]
    · have hpos := List.length_pos_of_ne_nil hempty
      have hlength : (buf ++ chunk).length = buf.length + chunk.length := List.length_append
      rw [← happend, ← List.append_assoc] at hfar ⊢
      have hnone' : position blankLine (buf ++ chunk) = none := by
        rw [Option.eq_none_iff_forall_ne_some]
        intro n hn
        have hend := position_le hn
        have hblank : blankLine.length = 4 := rfl
        have hlater := hfar n (position_extend hn _)
        omega
      rw [if_neg hempty, hnone']
      dsimp only
      split
      · rw [if_pos (by rw [List.length_append]; omega)]
      · exact ih hflow' (by omega) (by omega) hnone' hfar

/-! Cut apart or not: a request with a steady stream. -/

section Steady
variable {bytes : List UInt8} {stream : Stream}

theorem readHttpRequest_steady (hsteady : Steady bytes) (hflow : Flowing stream)
    (hbytes : stream.flatten = bytes) : readHttpRequest stream = requestOf bytes := by
  have hnil : position blankLine [] = none := by decide
  have hrefused := @readHead_refused (64 * 1024 + 1) [] stream hflow (Nat.zero_le _) (by simp) hnil
  rw [List.nil_append, hbytes] at hrefused
  unfold requestOf
  cases hfound : position blankLine bytes with
  | none =>
    rw [readHttpRequest, hrefused (by simp [hfound])]
  | some n =>
    have hend := position_le hfound
    have hblank : blankLine.length = 4 := rfl
    rcases hsteady n hfound with hfar | ⟨hnear, hcovered⟩
    · rw [readHttpRequest, hrefused (by simpa [hfound] using hfar), if_pos (by omega)]
      dsimp only
      rw [if_pos hfar]
    · obtain ⟨buf, rest, hread, hlong, hshort, hall, hflow'⟩ :=
        readHead_spec (64 * 1024 + 1) [] hflow (by rwa [List.nil_append, hbytes]) hnear (by simp)
          (by simp; omega)
      rw [List.nil_append, hbytes] at hall
      rw [readHttpRequest_found hread hall hlong hshort hflow']
      dsimp only
      rw [if_neg (by omega)]
      rcases parseDeclared_cases (bytes.take (n + 4)) with
        ⟨e, hparse, -⟩ | ⟨head, len, hparse, -, hdeclares⟩
      · rw [hparse]
      · have hlen : buf.length ≤ n + 4 + len := by
          by_cases hlarge : len < 1023
          · have hwhole := hcovered len hdeclares hlarge
            have hpart := congrArg List.length hall
            rw [List.length_append] at hpart
            omega
          · omega
        rw [hparse]
        dsimp only
        rw [if_pos hlen]

end Steady

/-! Two ways to cut a stream that is not. -/

section Jump
variable {bytes buf front : List UInt8} {rest : Stream} {n size k : Nat}

theorem readHead_singles {reads : Nat} (hsmall : (buf ++ front).length ≤ 64 * 1024)
    (hnone : position blankLine (buf ++ front) = none) :
    readHead (front.length + reads) buf (singles front ++ rest) =
      readHead reads (buf ++ front) rest := by
  induction front generalizing buf with
  | nil => rw [List.append_nil, List.length_nil, Nat.zero_add]; rfl
  | cons b front ih =>
    rw [List.append_cons] at hsmall hnone ⊢
    have hfuel : (b :: front).length + reads = (front.length + reads) + 1 := by
      rw [List.length_cons]
      omega
    have hread : read 1024 (singles (b :: front) ++ rest) = ([b], singles front ++ rest) := rfl
    rw [hfuel, readHead, hread]
    dsimp only
    rw [if_neg (List.cons_ne_nil b []), position_eq_none_of_append hnone]
    dsimp only
    rw [List.length_append] at hsmall
    rw [if_neg (by omega)]
    exact ih (by rw [List.length_append]; omega) hnone

theorem readHead_jump (hfound : position blankLine bytes = some n) (hfront : k < n + 4)
    (hsmall : k ≤ 64 * 1024) (hsize : 0 < size) (hchunk : size ≤ 1024)
    (hend : n + 4 ≤ k + size ∨ 64 * 1024 < k + size) :
    readHead (64 * 1024 + 1) [] (jump k size bytes) =
      if n + 4 ≤ k + size then
        .ok (bytes.take (k + size), n + 4, singles (bytes.drop (k + size)))
      else .error (.bail "request headers too large") := by
  have hblank : blankLine.length = 4 := rfl
  have hlong := position_le hfound
  have htake := position_take (by decide) hfound
  rw [hblank] at hlong htake
  have hlength : (bytes.take k).length = k := by rw [List.length_take]; omega
  have hfuel : 64 * 1024 + 1 = (bytes.take k).length + (64 * 1024 - k + 1) := by omega
  have hpiece : ((bytes.drop k).take size).length = min size (bytes.length - k) := by simp
  have hread (pieces : Stream) :
      read 1024 ((bytes.drop k).take size :: pieces) = ((bytes.drop k).take size, pieces) := by
    rw [Streams.read, if_pos (by omega)]
  rw [hfuel, jump, readHead_singles (by simp [hlength, hsmall])
    (by rw [List.nil_append, htake, if_neg (by omega)]), List.nil_append, readHead, hread]
  dsimp only
  rw [if_neg (List.ne_nil_of_length_pos (by omega)), ← List.take_add, htake]
  by_cases hall : n + 4 ≤ k + size
  · rw [if_pos hall, if_pos hall]
  · rw [if_neg hall, if_neg hall]
    dsimp only
    rw [if_pos (by rw [List.length_take]; omega)]

/-- The bytes that come with the end of the header, beyond what it declares, stay in the body. -/
theorem readHttpRequest_jump (hfound : position blankLine bytes = some n) (hfront : k < n + 4)
    (hsmall : k ≤ 64 * 1024) (hchunk : size ≤ 1024) (hend : n + 4 ≤ k + size) :
    readHttpRequest (jump k size bytes) =
      match parseDeclared (bytes.take (n + 4)) with
      | .error e => .error e
      | .ok (head, contentLen) =>
        if (bytes.take (k + size)).length ≤ n + 4 + contentLen then
          if contentLen ≤ (bytes.drop (n + 4)).length then
            .ok { toRequestHead := head, body := (bytes.drop (n + 4)).take contentLen }
          else .error (.bail "connection closed while reading body")
        else .ok { toRequestHead := head, body := (bytes.take (k + size)).drop (n + 4) } := by
  have hlong := position_le hfound
  have hblank : blankLine.length = 4 := rfl
  have hread := readHead_jump hfound hfront hsmall (by omega) hchunk (.inl hend)
  rw [if_pos hend] at hread
  refine readHttpRequest_found hread ?_ ?_ ?_ (flowing_singles _)
  · rw [flatten_singles, List.take_append_drop]
  · rw [List.length_take]
    omega
  · rw [List.length_take]
    omega

end Jump

/-- Whatever the packets, the result is the same, and the body of a request is exactly the bytes
its header declares. -/
structure SplitFree (bytes : List UInt8) : Prop where
  same : ∀ stream stream' : Stream, Flowing stream → Flowing stream' → stream.flatten = bytes →
    stream'.flatten = bytes → readHttpRequest stream = readHttpRequest stream'
  body : ∀ (stream : Stream) request, Flowing stream → stream.flatten = bytes →
    readHttpRequest stream = .ok request →
    ∃ n len, position blankLine bytes = some n ∧ request.contentLen = .ok len ∧
      request.body = (bytes.drop (n + 4)).take len ∧ request.body.length = len

section SplitFree
variable {bytes : List UInt8} {n len : Nat}

theorem SplitFree.jump (h : SplitFree bytes) {k : Nat} (hk : k < bytes.length) :
    readHttpRequest (jump k 1 bytes) = readHttpRequest (jump k 1024 bytes) :=
  h.same _ _ (flowing_jump hk (by decide)) (flowing_jump hk (by decide)) (flatten_jump _ _ _)
    (flatten_jump _ _ _)

theorem Steady.splitFree (h : Steady bytes) : SplitFree bytes where
  same stream stream' hflow hflow' hbytes hbytes' := by
    rw [readHttpRequest_steady h hflow hbytes, readHttpRequest_steady h hflow' hbytes']
  body stream request hflow hbytes hread := by
    rw [readHttpRequest_steady h hflow hbytes, requestOf] at hread
    cases hfound : position blankLine bytes with
    | none => simp [hfound] at hread
    | some n =>
      simp only [hfound] at hread
      split at hread
      · contradiction
      · rcases parseDeclared_cases (bytes.take (n + 4)) with
          ⟨e, hparse, -⟩ | ⟨head, len, hparse, hlen, -⟩
        · simp [hparse] at hread
        · simp only [hparse] at hread
          split at hread
          · rename_i hthere
            obtain rfl := Except.ok.inj hread
            exact ⟨n, len, rfl, hlen, rfl, List.length_take_of_le hthere⟩
          · contradiction

theorem not_splitFree_of_limit (hfound : position blankLine bytes = some n)
    (hbeyond : 64 * 1024 + 1 < n + 4) (hnear : n + 4 ≤ 64 * 1024 + 1024) : ¬ SplitFree bytes := by
  intro h
  have hlong := position_le hfound
  have hblank : blankLine.length = 4 := rfl
  have hrefused : readHead (64 * 1024 + 1) [] (jump (64 * 1024) 1 bytes) = _ :=
    readHead_jump hfound (by omega) (Nat.le_refl _) (by decide) (by decide) (by omega)
  rw [if_neg (by omega)] at hrefused
  have hsame := @SplitFree.jump bytes h (64 * 1024) (by omega)
  rw [readHttpRequest, hrefused, readHttpRequest_jump hfound (by omega) (Nat.le_refl _)
    (by decide) (by omega)] at hsame
  rcases parseDeclared_cases (bytes.take (n + 4)) with
    ⟨e, hparse, hsize⟩ | ⟨head, len, hparse, -, -⟩
  · rw [hparse] at hsame
    exact hsize (Except.error.inj hsame).symm
  · simp only [hparse] at hsame
    split at hsame
    · split at hsame
      · contradiction
      · simp at hsame
    · contradiction

theorem not_splitFree_of_extra (hfound : position blankLine bytes = some n)
    (hnear : n + 4 ≤ 64 * 1024 + 1) (hdeclares : DeclaresLength (bytes.take (n + 4)) len)
    (hsmall : len < 1023) (hextra : n + 4 + len < bytes.length) : ¬ SplitFree bytes := by
  intro h
  obtain ⟨head, hparse⟩ := hdeclares.parse (Nat.le_of_lt (Nat.lt_trans hsmall (by decide)))
  have hsame := @SplitFree.jump bytes h (n + 3) (by omega)
  rw [readHttpRequest_jump hfound (by omega) (by omega) (by decide) (by omega),
    readHttpRequest_jump hfound (by omega) (by omega) (by decide) (by omega), hparse] at hsame
  dsimp only at hsame
  rw [if_pos (by rw [List.length_take]; omega), if_pos (by rw [List.length_drop]; omega),
    if_neg (by rw [List.length_take]; omega)] at hsame
  have hbody := congrArg List.length (congrArg HttpRequest.body (Except.ok.inj hsame))
  simp only [List.length_take, List.length_drop] at hbody
  omega

end SplitFree

/-- Packet boundaries do not show in a request exactly if its stream is steady. -/
theorem http_split_free_iff (bytes : List UInt8) : SplitFree bytes ↔ Steady bytes := by
  refine ⟨fun h n hfound => ?_, Steady.splitFree⟩
  by_cases hfar : 64 * 1024 + 1024 < n + 4
  · exact .inl hfar
  · by_cases hnear : n + 4 ≤ 64 * 1024 + 1
    · refine .inr ⟨hnear, fun len hdeclares hsmall => ?_⟩
      by_contra hextra
      exact not_splitFree_of_extra hfound hnear hdeclares hsmall (by omega) h
    · exact absurd h (not_splitFree_of_limit hfound (by omega) (by omega))

namespace Sample

def oneMore : List UInt8 := encode (header ["POST /auth HTTP/1.1"]) ++ [33]

/-- The byte is the body, or there is none. -/
theorem oneMore_depends : ¬ ∀ bytes, SplitFree bytes := by
  intro hclaim
  have hline : ∀ line ∈ ["POST /auth HTTP/1.1"], HeaderLine line := by decide
  have hfound := position_header (List.cons_ne_nil _ _) hline [33]
  have htake : oneMore.take ((encode ("\r\n".intercalate ["POST /auth HTTP/1.1"])).length + 4) =
      encode (header ["POST /auth HTTP/1.1"]) := by
    rw [← length_header, oneMore, List.take_left]
  have hdeclares : DeclaresLength (encode (header ["POST /auth HTTP/1.1"])) 0 :=
    ⟨_, decode_encode _, by rw [splitLines_header (List.cons_ne_nil _ _) hline]; rfl⟩
  rw [← htake] at hdeclares
  exact not_splitFree_of_extra hfound (by decide) hdeclares (by decide) (by decide)
    (hclaim oneMore)

end Sample
end P2pDdns
