import P2pDdns.AddressTexts
import P2pDdns.HeaderBlocks
import P2pDdns.Streams

/-!
The admin interface over HTTP, as bytes: a request as the client writes it and the server reads it
off the connection, and the way back of the response.
-/

set_option autoImplicit false

namespace P2pDdns
open Std TextLines HeaderBlocks Streams

inductive HttpError where
  | bail (message : String)
  | utf8
  | parseInt (e : ParseIntError)
  deriving DecidableEq, Repr

/-! Requests. -/

structure RequestHead where
  method : String
  path : String
  headers : ExtTreeMap String String

structure HttpRequest extends RequestHead where
  body : List UInt8

def MAX_BODY_SIZE : Nat := 4 * 1024 * 1024

/-- The buffer once it holds the end of the header, that end, and what is not read yet. After so
many reads of at least one byte the header is too large. -/
def readHead : Nat → List UInt8 → Stream → Except HttpError (List UInt8 × Nat × Stream)
  | 0, _, _ => .error (.bail "request headers too large")
  | reads+1, buf, stream =>
    let chunk := read 1024 stream
    if chunk.1 = [] then .error (.bail "connection closed")
    else
      let buf := buf ++ chunk.1
      match position blankLine buf with
      | some pos => .ok (buf, pos + 4, chunk.2)
      | none =>
        if buf.length > 64 * 1024 then .error (.bail "request headers too large")
        else readHead reads buf chunk.2

def readHeaders : List String → ExtTreeMap String String → ExtTreeMap String String
  | [], headers => headers
  | line :: lines, headers =>
    if line.isEmpty then headers
    else
      match splitOnce ':' line with
      | some (k, v) => readHeaders lines (headers.insert (toAsciiLowercase (trim k)) (trim v))
      | none => readHeaders lines headers

def parseHead (headerText : String) : Except HttpError RequestHead :=
  match splitLines headerText with
  | [] => .error (.bail "missing request line")
  | requestLine :: lines =>
    let parts := splitWhitespace requestLine
    .ok { method := parts[0]?.getD "", path := parts[1]?.getD "", headers := readHeaders lines ∅ }

def RequestHead.contentLen (head : RequestHead) : Except ParseIntError Nat :=
  match head.headers["content-length"]? with
  | some text => parseUnsigned UInt64.size text
  | none => .ok 0

def readBody : Nat → Nat → List UInt8 → Stream → Except HttpError (List UInt8)
  | 0, _, body, _ => .ok body
  | reads+1, contentLen, body, stream =>
    if body.length < contentLen then
      let chunk := read (contentLen - body.length) stream
      if chunk.1 = [] then .error (.bail "connection closed while reading body")
      else if (body ++ chunk.1).length > MAX_BODY_SIZE then
        .error (.bail "request body too large")
      else readBody reads contentLen (body ++ chunk.1) chunk.2
    else .ok body

def readHttpRequest (stream : Stream) : Except HttpError HttpRequest :=
  match readHead (64 * 1024 + 1) [] stream with
  | .error e => .error e
  | .ok (buf, headerEnd, stream) =>
    match decode (buf.take headerEnd) with
    | none => .error .utf8
    | some headerText =>
      match parseHead headerText with
      | .error e => .error e
      | .ok head =>
        match head.contentLen with
        | .error e => .error (.parseInt e)
        | .ok contentLen =>
          if contentLen > MAX_BODY_SIZE then .error (.bail "request body too large")
          else if (buf.drop headerEnd).length > MAX_BODY_SIZE then
            .error (.bail "request body too large")
          else
            match readBody contentLen contentLen (buf.drop headerEnd) stream with
            | .error e => .error e
            | .ok body => .ok { toRequestHead := head, body := body }

def postHead (bind : SocketAddr) (path : String) (length : Nat) : String :=
  s!"POST {path} HTTP/1.1\r\nHost: {bind.toText}\r\nContent-Type: application/postcard\r\n" ++
    s!"Content-Length: {length}\r\nConnection: close\r\n\r\n"

def sendHttpPost (bind : SocketAddr) (path : String) (body : List UInt8) : List UInt8 :=
  encode (postHead bind path body.length) ++ body

/-! Responses. -/

def reason (status : UInt16) : String :=
  match status with
  | 200 => "OK"
  | 401 => "Unauthorized"
  | 403 => "Forbidden"
  | 404 => "Not Found"
  | 405 => "Method Not Allowed"
  | 415 => "Unsupported Media Type"
  | 500 => "Internal Server Error"
  | _ => "OK"

def responseHead (status : UInt16) (contentType : String) (length : Nat) : String :=
  s!"HTTP/1.1 {status.toNat} {reason status}\r\nContent-Type: {contentType}\r\n" ++
    s!"Content-Length: {length}\r\nConnection: close\r\n\r\n"

def writeResponse (status : UInt16) (contentType : String) (body : List UInt8) : List UInt8 :=
  encode (responseHead status contentType body.length) ++ body

def parseHttpResponse (resp : List UInt8) : Except HttpError (UInt16 × List UInt8) :=
  match position blankLine resp with
  | none => .error (.bail "missing response header terminator")
  | some headerEnd =>
    match decode (resp.take headerEnd) with
    | none => .error .utf8
    | some header =>
      match (linesOf header).head?.bind fun line => (splitWhitespace line)[1]? with
      | none => .error (.bail "bad status line")
      | some text =>
        match parseUnsigned UInt16.size text with
        | .error e => .error (.parseInt e)
        | .ok status => .ok (.ofNat status, resp.drop (headerEnd + 4))

/-! Reading a response. -/

section Response
variable {status : UInt16} {contentType : String}

def statusLine (status : UInt16) : String :=
  "HTTP/1.1" ++ " " ++ (toString status.toNat ++ " " ++ reason status)

def responseLines (status : UInt16) (contentType : String) (length : Nat) : List String :=
  [statusLine status, "Content-Type: " ++ contentType, "Content-Length: " ++ toString length,
    "Connection: close"]

theorem responseHead_eq (status : UInt16) (contentType : String) (length : Nat) :
    responseHead status contentType length = header (responseLines status contentType length) := by
  unfold responseHead header responseLines statusLine
  rw [String.intercalate_cons_cons, String.intercalate_cons_cons, String.intercalate_cons_cons,
    String.intercalate_singleton]
  apply String.toList_inj.mp
  simp only [String.toList_append, List.append_assoc]
  rfl

theorem reason_oneLine (status : UInt16) : OneLine (reason status) := by
  unfold reason
  split <;> decide

theorem statusLine_oneLine (status : UInt16) : OneLine (statusLine status) := by
  have hstatus := toString_oneLine status.toNat
  exact .append (by decide) (.append (.append hstatus (by decide)) (reason_oneLine status))

theorem responseLines_headerLine (status : UInt16) (htype : OneLine contentType) (length : Nat) :
    ∀ line ∈ responseLines status contentType length, HeaderLine line := by
  have hstatus : HeaderLine (statusLine status) :=
    headerLine_append (by decide) (by decide)
      (.append (.append (toString_oneLine status.toNat) (by decide)) (reason_oneLine status))
  have hcontent : HeaderLine ("Content-Type: " ++ contentType) :=
    headerLine_append (by decide) (by decide) htype
  have hlength : HeaderLine ("Content-Length: " ++ toString length) :=
    headerLine_append (by decide) (by decide) (toString_oneLine length)
  have hconnection : HeaderLine "Connection: close" := by decide
  rw [responseLines, List.forall_mem_cons, List.forall_mem_cons, List.forall_mem_cons,
    List.forall_mem_singleton]
  exact ⟨hstatus, hcontent, hlength, hconnection⟩

theorem splitWhitespace_statusLine (status : UInt16) :
    (splitWhitespace (statusLine status))[1]? = some (toString status.toNat) := by
  have hversion : Word "HTTP/1.1" := word_of_all (by decide) (by decide)
  rw [statusLine, splitWhitespace_append hversion, splitWhitespace_append (word_toString _)]
  rfl

theorem parseHttpResponse_writeResponse (htype : OneLine contentType) (body : List UInt8) :
    parseHttpResponse (writeResponse status contentType body) = .ok (status, body) := by
  have hlines := responseLines_headerLine status htype body.length
  have hne : responseLines status contentType body.length ≠ [] := List.cons_ne_nil _ _
  have hposition := position_header hne hlines body
  have htake : (encode (header (responseLines status contentType body.length)) ++ body).take
      (encode ("\r\n".intercalate (responseLines status contentType body.length))).length =
      encode ("\r\n".intercalate (responseLines status contentType body.length)) := by
    rw [encode_header, List.append_assoc, List.take_left]
  have hfirst : (linesOf ("\r\n".intercalate (responseLines status contentType body.length))).head?
      = some (statusLine status) := by
    rw [responseLines, String.intercalate_cons_cons]
    exact head?_linesOf (statusLine_oneLine status) _
  rw [writeResponse, responseHead_eq, parseHttpResponse, hposition]
  simp only [htake, decode_encode, hfirst, Option.bind_some, splitWhitespace_statusLine]
  rw [parseUnsigned_toString status.toNat_lt, drop_header]
  dsimp only
  rw [UInt16.ofNat_toNat]

end Response

/-! Reading a request: the loops. -/

section Loops
variable {stream : Stream} {buf body : List UInt8} {n : Nat}

/-- If the header is small enough, the buffer ends up with all of it and maybe a part of the
body, less than one chunk. -/
theorem readHead_spec (reads : Nat) (buf : List UInt8) (hflow : Flowing stream)
    (hfound : position blankLine (buf ++ stream.flatten) = some n)
    (hsmall : n + 4 ≤ 64 * 1024 + 1) (hshort : buf.length < n + 4)
    (hreads : n + 4 ≤ buf.length + reads) :
    ∃ buf' rest, readHead reads buf stream = .ok (buf', n + 4, rest) ∧ n + 4 ≤ buf'.length ∧
      buf'.length < n + 4 + 1024 ∧ buf' ++ rest.flatten = buf ++ stream.flatten ∧
      Flowing rest := by
  induction reads generalizing buf stream with
  | zero => omega
  | succ reads ih =>
    have hblank : blankLine.length = 4 := rfl
    have hlength := position_le hfound
    rw [List.length_append, hblank] at hlength
    obtain ⟨chunk, left, hread, happend, hle, hflow', hnil⟩ :=
      read_spec hflow (show 0 < 1024 by decide)
    have hchunk : chunk ≠ [] := by
      intro hempty
      rw [hnil.mp hempty, List.length_nil] at hlength
      omega
    have hpos := List.length_pos_of_ne_nil hchunk
    rw [readHead, hread]
    dsimp only
    rw [if_neg hchunk]
    rw [← happend, ← List.append_assoc] at hfound ⊢
    have hposition : position blankLine (buf ++ chunk) =
        if n + 4 ≤ (buf ++ chunk).length then some n else none := by
      have htake := position_take (by decide) hfound (buf ++ chunk).length
      rwa [List.take_left, hblank] at htake
    rw [hposition]
    by_cases hall : n + 4 ≤ (buf ++ chunk).length
    · rw [if_pos hall]
      exact ⟨_, _, rfl, hall, by rw [List.length_append]; omega, rfl, hflow'⟩
    · rw [if_neg hall]
      dsimp only
      rw [if_neg (by omega)]
      exact ih (buf ++ chunk) hflow' hfound (by omega) (by rw [List.length_append]; omega)

theorem readBody_spec (reads : Nat) {contentLen : Nat} (hflow : Flowing stream)
    (hsmall : contentLen ≤ MAX_BODY_SIZE) (hshort : body.length ≤ contentLen)
    (hreads : contentLen ≤ body.length + reads) :
    readBody reads contentLen body stream =
      if contentLen ≤ (body ++ stream.flatten).length then
        .ok ((body ++ stream.flatten).take contentLen)
      else .error (.bail "connection closed while reading body") := by
  induction reads generalizing body stream with
  | zero =>
    have hlen : body.length = contentLen := by omega
    rw [readBody, List.take_left' hlen, if_pos (by rw [List.length_append]; omega)]
  | succ reads ih =>
    rw [readBody]
    split
    · rename_i hmissing
      obtain ⟨chunk, left, hread, happend, hle, hflow', hnil⟩ :=
        read_spec hflow (Nat.sub_pos_of_lt hmissing)
      rw [hread]
      dsimp only
      by_cases hempty : chunk = []
      · have hend : stream.flatten = [] := hnil.mp hempty
        rw [if_pos hempty, hend, List.append_nil, if_neg (by omega)]
      · have hpos := List.length_pos_of_ne_nil hempty
        have hlength : (body ++ chunk).length = body.length + chunk.length := List.length_append
        rw [if_neg hempty, if_neg (by omega), ← happend, ← List.append_assoc]
        exact ih hflow' (by omega) (by omega)
    · rename_i hmissing
      have hlen : body.length = contentLen := by omega
      rw [List.take_left' hlen, if_pos (by rw [List.length_append]; omega)]

theorem readBody_all {reads contentLen : Nat} (h : contentLen ≤ body.length)
    (stream : Stream) : readBody reads contentLen body stream = .ok body := by
  cases reads with
  | zero => rfl
  | succ reads => rw [readBody, if_neg (Nat.not_lt.mpr h)]

def parseDeclared (head : List UInt8) : Except HttpError (RequestHead × Nat) :=
  match decode head with
  | none => .error .utf8
  | some headerText =>
    match parseHead headerText with
    | .error e => .error e
    | .ok requestHead =>
      match requestHead.contentLen with
      | .error e => .error (.parseInt e)
      | .ok contentLen =>
        if contentLen > MAX_BODY_SIZE then .error (.bail "request body too large")
        else .ok (requestHead, contentLen)

/-- What comes of a request whose header is found: of the bytes that came with the end of the
header, none is given back. -/
theorem readHttpRequest_found {bytes : List UInt8} {rest : Stream}
    (hread : readHead (64 * 1024 + 1) [] stream = .ok (buf, n + 4, rest))
    (hall : buf ++ rest.flatten = bytes) (hlong : n + 4 ≤ buf.length)
    (hshort : buf.length < n + 4 + 1024) (hflow : Flowing rest) :
    readHttpRequest stream =
      match parseDeclared (bytes.take (n + 4)) with
      | .error e => .error e
      | .ok (head, contentLen) =>
        if buf.length ≤ n + 4 + contentLen then
          if contentLen ≤ (bytes.drop (n + 4)).length then
            .ok { toRequestHead := head, body := (bytes.drop (n + 4)).take contentLen }
          else .error (.bail "connection closed while reading body")
        else .ok { toRequestHead := head, body := buf.drop (n + 4) } := by
  have hmax : MAX_BODY_SIZE = 4194304 := rfl
  have htake : bytes.take (n + 4) = buf.take (n + 4) := by
    rw [← hall, List.take_append_of_le_length hlong]
  have hdrop : bytes.drop (n + 4) = buf.drop (n + 4) ++ rest.flatten := by
    rw [← hall, List.drop_append_of_le_length hlong]
  have hlength : (buf.drop (n + 4)).length = buf.length - (n + 4) := List.length_drop
  rw [readHttpRequest, hread, htake]
  unfold parseDeclared
  dsimp only
  cases decode (buf.take (n + 4)) with
  | none => rfl
  | some text =>
    dsimp only
    cases parseHead text with
    | error e => rfl
    | ok requestHead =>
      dsimp only
      cases requestHead.contentLen with
      | error e => rfl
      | ok contentLen =>
        dsimp only
        by_cases hlarge : contentLen > MAX_BODY_SIZE
        · rw [if_pos hlarge, if_pos hlarge]
        · rw [if_neg hlarge, if_neg hlarge, if_neg (by omega)]
          dsimp only
          by_cases hcovered : buf.length ≤ n + 4 + contentLen
          · rw [if_pos hcovered, readBody_spec contentLen hflow (by omega) (by omega) (by omega),
              ← hdrop]
            by_cases hthere : contentLen ≤ (bytes.drop (n + 4)).length
            · rw [if_pos hthere, if_pos hthere]
            · rw [if_neg hthere, if_neg hthere]
          · rw [if_neg hcovered, readBody_all (by omega)]

theorem readHttpRequest_header {lines : List String} {head : RequestHead} (hne : lines ≠ [])
    (hlines : ∀ line ∈ lines, HeaderLine line) (hflow : Flowing stream)
    (hbytes : stream.flatten = encode (header lines) ++ body)
    (hsmall : (encode (header lines)).length ≤ 64 * 1024)
    (hhead : parseHead (header lines) = .ok head) (hlen : head.contentLen = .ok body.length)
    (hbody : body.length ≤ MAX_BODY_SIZE) :
    readHttpRequest stream = .ok ⟨head, body⟩ := by
  have hfound := position_header hne hlines body
  have hend := length_header lines
  generalize header lines = text at *
  rw [← hbytes] at hfound
  rw [hend] at hsmall
  obtain ⟨buf, rest, hread, hlong, hshort, hall, hflow'⟩ :=
    readHead_spec (64 * 1024 + 1) [] hflow hfound (by omega) (by simp) (by simp; omega)
  rw [List.nil_append, hbytes] at hall
  have htake : (encode text ++ body).take (encode text).length = encode text := List.take_left
  have hdrop : (encode text ++ body).drop (encode text).length = body := List.drop_left
  have hparse : parseDeclared (encode text) = .ok (head, body.length) := by
    simp only [parseDeclared, decode_encode, hhead, hlen]
    exact if_neg (Nat.not_lt.mpr hbody)
  have hcovered : buf.length ≤ (encode text).length + body.length := by
    rw [← List.length_append, ← hall, List.length_append]
    exact Nat.le_add_right _ _
  rw [readHttpRequest_found hread hall hlong hshort hflow', ← hend, htake, hdrop, hparse]
  dsimp only
  rw [if_pos hcovered, if_pos (Nat.le_refl _), List.take_length]

end Loops

/-! Reading a request: its header. -/

section Post
variable {bind : SocketAddr} {path : String} {length : Nat}

def requestLine (path : String) : String := "POST" ++ " " ++ (path ++ " " ++ "HTTP/1.1")

def postFields (bind : SocketAddr) (length : Nat) : List (String × String) :=
  [("Host", bind.toText), ("Content-Type", "application/postcard"),
    ("Content-Length", toString length), ("Connection", "close")]

def postLines (bind : SocketAddr) (path : String) (length : Nat) : List String :=
  requestLine path :: (postFields bind length).map fun f => field f.1 f.2

def postHeaders (bind : SocketAddr) (length : Nat) : ExtTreeMap String String :=
  ((((∅ : ExtTreeMap String String).insert "host" bind.toText).insert "content-type"
    "application/postcard").insert "content-length" (toString length)).insert "connection" "close"

theorem postHead_eq (bind : SocketAddr) (path : String) (length : Nat) :
    postHead bind path length = header (postLines bind path length) := by
  unfold postHead header postLines requestLine postFields field
  simp only [List.map_cons, List.map_nil]
  rw [String.intercalate_cons_cons, String.intercalate_cons_cons, String.intercalate_cons_cons,
    String.intercalate_cons_cons, String.intercalate_singleton]
  apply String.toList_inj.mp
  simp only [String.toList_append, List.append_assoc]
  rfl

theorem postFields_plain (bind : SocketAddr) (length : Nat) :
    ∀ f ∈ postFields bind length, f.1 ≠ "" ∧ ':' ∉ f.1.toList ∧ OneLine f.1 ∧
      ∀ c ∈ f.2.toList, isWhitespace c = false := by
  have htype : ∀ c ∈ "application/postcard".toList, isWhitespace c = false :=
    (word_of_all (by decide) (by decide)).2
  have hclose : ∀ c ∈ "close".toList, isWhitespace c = false :=
    (word_of_all (by decide) (by decide)).2
  rw [postFields, List.forall_mem_cons, List.forall_mem_cons, List.forall_mem_cons,
    List.forall_mem_singleton]
  dsimp only
  exact ⟨⟨by decide, by decide, by decide, bind.toText_word⟩,
    ⟨by decide, by decide, by decide, htype⟩,
    ⟨by decide, by decide, by decide, (word_toString length).2⟩,
    ⟨by decide, by decide, by decide, hclose⟩⟩

theorem postLines_headerLine (hpath : ∀ c ∈ path.toList, isWhitespace c = false) :
    ∀ line ∈ postLines bind path length, HeaderLine line := by
  refine List.forall_mem_cons.mpr ⟨?_, List.forall_mem_map.mpr fun f hf => ?_⟩
  · exact headerLine_append (by decide) (by decide)
      (.append (.append (oneLine_of_visible hpath) (by decide)) (by decide))
  · obtain ⟨hne, -, hkey, hvalue⟩ := postFields_plain bind length f hf
    have hline : HeaderLine (f.1 ++ (":" ++ (" " ++ f.2))) :=
      headerLine_append hne hkey
        (.append (by decide) (.append (by decide) (oneLine_of_visible hvalue)))
    rwa [← String.append_assoc] at hline

theorem readHeaders_fields {fields : List (String × String)} (rest : List String)
    (headers : ExtTreeMap String String)
    (h : ∀ f ∈ fields, ':' ∉ f.1.toList ∧ ∀ c ∈ f.2.toList, isWhitespace c = false) :
    readHeaders ((fields.map fun f => field f.1 f.2) ++ "" :: rest) headers =
      fields.foldl (fun headers f => headers.insert (toAsciiLowercase (trim f.1)) f.2) headers := by
  induction fields generalizing headers with
  | nil => rfl
  | cons f fields ih =>
    obtain ⟨⟨hkey, hvalue⟩, hfields⟩ := List.forall_mem_cons.mp h
    have hne : (field f.1 f.2).isEmpty = false := by
      rw [String.isEmpty_eq_false_iff, ← String.toList_inj.ne]
      simp [field]
    rw [List.map_cons, List.cons_append, readHeaders, hne, if_neg Bool.false_ne_true, field,
      splitOnce_append hkey]
    dsimp only
    rw [trim_space hvalue, ih _ hfields, List.foldl_cons]

theorem postFields_keys (bind : SocketAddr) (length : Nat) :
    (postFields bind length).foldl
      (fun headers f => headers.insert (toAsciiLowercase (trim f.1)) f.2) ∅ =
        postHeaders bind length := by
  have hhost : toAsciiLowercase (trim "Host") = "host" := by decide
  have htype : toAsciiLowercase (trim "Content-Type") = "content-type" := by decide
  have hlength : toAsciiLowercase (trim "Content-Length") = "content-length" := by decide
  have hconnection : toAsciiLowercase (trim "Connection") = "connection" := by decide
  rw [postFields, List.foldl_cons, List.foldl_cons, List.foldl_cons, List.foldl_cons,
    List.foldl_nil, hhost, htype, hlength, hconnection, postHeaders]

theorem parseHead_post (bind : SocketAddr) (length : Nat) (hne : path ≠ "")
    (hpath : ∀ c ∈ path.toList, isWhitespace c = false) :
    parseHead (header (postLines bind path length)) =
      .ok { method := "POST", path := path, headers := postHeaders bind length } := by
  have hlines : postLines bind path length ≠ [] := List.cons_ne_nil _ _
  have hsplit := splitLines_header hlines (postLines_headerLine hpath)
  have hpost : Word "POST" := word_of_all (by decide) (by decide)
  have hparts : splitWhitespace (requestLine path) =
      "POST" :: path :: splitWhitespace "HTTP/1.1" := by
    rw [requestLine, splitWhitespace_append hpost, splitWhitespace_append ⟨hne, hpath⟩]
  have hheaders := readHeaders_fields [""] ∅ fun f hf =>
    ⟨(postFields_plain bind length f hf).2.1, (postFields_plain bind length f hf).2.2.2⟩
  rw [parseHead, hsplit, postLines, List.cons_append]
  dsimp only
  rw [hparts, hheaders, postFields_keys]
  rfl

theorem postHeaders_contentType (bind : SocketAddr) (length : Nat) :
    (postHeaders bind length)["content-type"]? = some "application/postcard" := by
  rw [postHeaders, ExtTreeMap.getElem?_insert, if_neg (by decide), ExtTreeMap.getElem?_insert,
    if_neg (by decide), ExtTreeMap.getElem?_insert_self]

theorem postHeaders_contentLength (bind : SocketAddr) (length : Nat) :
    (postHeaders bind length)["content-length"]? = some (toString length) := by
  rw [postHeaders, ExtTreeMap.getElem?_insert, if_neg (by decide), ExtTreeMap.getElem?_insert_self]

theorem contentLen_post (bind : SocketAddr) (path : String) (h : length < UInt64.size) :
    RequestHead.contentLen ⟨"POST", path, postHeaders bind length⟩ = .ok length := by
  rw [RequestHead.contentLen]
  dsimp only
  rw [postHeaders_contentLength]
  exact parseUnsigned_toString h

theorem length_post_le (hpath : (encode path).length ≤ 1024) (hlength : length ≤ MAX_BODY_SIZE) :
    (encode (header (postLines bind path length))).length ≤ 64 * 1024 := by
  have hlines : postLines bind path length ≠ [] := List.cons_ne_nil _ _
  have hrequest : (encode (requestLine path)).length = 14 + (encode path).length := by
    have hpost : (encode "POST").length = 4 := by decide
    have hversion : (encode "HTTP/1.1").length = 8 := by decide
    have hspace : (encode " ").length = 1 := by decide
    simp only [requestLine, encode_append, List.length_append, hpost, hversion, hspace]
    omega
  have hbind := (length_encode_le bind.toText).trans (Nat.mul_le_mul_left 4 bind.length_toText_le)
  have hdigits : (toString length).toList.length ≤ 7 := by
    rw [Nat.toString_eq_ofList_toDigits, String.toList_ofList]
    exact (Nat.length_toDigits_le_iff (by decide) (by decide)).mpr
      (Nat.lt_of_le_of_lt hlength (by decide))
  have hnumber := (length_encode_le (toString length)).trans (Nat.mul_le_mul_left 4 hdigits)
  have hhost : (encode "Host").length = 4 := by decide
  have htype : (encode "Content-Type").length = 12 := by decide
  have hpostcard : (encode "application/postcard").length = 20 := by decide
  have hcontent : (encode "Content-Length").length = 14 := by decide
  have hconnection : (encode "Connection").length = 10 := by decide
  have hclose : (encode "close").length = 5 := by decide
  rw [encode_header_lines hlines]
  simp only [postLines, postFields, List.map_cons, List.map_nil, List.flatMap_cons,
    List.flatMap_nil, List.length_append, List.length_cons, List.length_nil, length_encode_field,
    hrequest, hhost, htype, hpostcard, hcontent, hconnection, hclose]
  omega

/-- A request arrives as it was sent, in whatever pieces. -/
theorem readHttpRequest_sendHttpPost {body : List UInt8} {stream : Stream} (hne : path ≠ "")
    (hpath : ∀ c ∈ path.toList, isWhitespace c = false) (hshort : (encode path).length ≤ 1024)
    (hbody : body.length ≤ MAX_BODY_SIZE) (hflow : Flowing stream)
    (hbytes : stream.flatten = sendHttpPost bind path body) :
    readHttpRequest stream =
      .ok ⟨⟨"POST", path, postHeaders bind body.length⟩, body⟩ := by
  rw [sendHttpPost, postHead_eq] at hbytes
  have hlines : postLines bind path body.length ≠ [] := List.cons_ne_nil _ _
  have hsize : body.length < UInt64.size := Nat.lt_of_le_of_lt hbody (by decide)
  exact readHttpRequest_header hlines (postLines_headerLine hpath) hflow hbytes
    (length_post_le hshort hbody) (parseHead_post bind body.length hne hpath)
    (contentLen_post bind path hsize) hbody

end Post

/-- Client and server read what the other one writes: a request in whatever pieces it arrives, a
response with whatever body. -/
theorem http_round_trip :
    (∀ bind path body, path ≠ "" → (∀ c ∈ path.toList, isWhitespace c = false) →
      (encode path).length ≤ 1024 → body.length ≤ 4 * 1024 * 1024 →
      ∀ stream, Flowing stream → stream.flatten = sendHttpPost bind path body →
        ∃ request, readHttpRequest stream = .ok request ∧ request.method = "POST" ∧
          request.path = path ∧
          request.headers["content-type"]? = some "application/postcard" ∧
          request.headers["content-length"]? = some (toString body.length) ∧
          request.body = body) ∧
    ∀ status contentType body, OneLine contentType →
      parseHttpResponse (writeResponse status contentType body) = .ok (status, body) := by
  constructor
  · intro bind path body hne hpath hshort hbody stream hflow hbytes
    exact ⟨_, readHttpRequest_sendHttpPost hne hpath hshort hbody hflow hbytes, rfl, rfl,
      postHeaders_contentType bind body.length, postHeaders_contentLength bind body.length, rfl⟩
  · intro status contentType body htype
    exact parseHttpResponse_writeResponse htype body

namespace Sample

theorem http_round_trip_blankLine :
    (∃ request, readHttpRequest
          (singles (sendHttpPost (.v4 0x7f000001 8053) "/command" blankLine)) = .ok request ∧
        request.method = "POST" ∧ request.path = "/command" ∧
        request.headers["content-type"]? = some "application/postcard" ∧
        request.headers["content-length"]? = some (toString blankLine.length) ∧
        request.body = blankLine) ∧
    parseHttpResponse (writeResponse 200 "application/postcard" blankLine) =
      .ok (200, blankLine) :=
  ⟨http_round_trip.1 _ _ _ (by decide) (word_of_all (by decide) (by decide)).2 (by decide)
      (by decide) _ (flowing_singles _) (flatten_singles _),
    http_round_trip.2 _ _ _ (by decide)⟩

end Sample
end P2pDdns
