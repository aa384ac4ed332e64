import OtaApi.ParseRange

/-!
# The server of the examples

`OtaRequestHandler.send_head()` of `ota_server.py`, over the stock handler of the
Python library. What is sent of a file is decided here; how fast it is sent is not
modelled.
-/

namespace OtaApi

open ByteRange

/-- A regular file: what it holds, and what the handler says of it. -/
structure ImageFile where
  content : List UInt8
  contentType : String
  lastModified : String
  deriving DecidableEq, Repr

def ImageFile.size (f : ImageFile) : Nat := f.content.length

/-- The status, the headers in order, and the file object if there is one. -/
structure Response where
  status : Nat
  headers : List (String × String)
  body : Option (List UInt8)
  deriving DecidableEq, Repr

/-- What the path of a request leads to; for all that is not a regular file the stock
handler has an answer of its own. -/
inductive Target where
  | file : ImageFile → Target
  | other : Response → Target

/-- The options of `build_server()` that decide what is sent. -/
structure OtaRequestHandler where
  honourRange : Bool
  keepAlive : Bool
  deriving DecidableEq, Repr

/-- Names are compared as the server writes them. -/
def Response.getheader (r : Response) (name : String) : Option String := r.headers.lookup name

/-- `f'bytes {first}-{last}/{size}'` -/
def renderContentRange (first last size : Nat) : String :=
  "bytes " ++ toString first ++ "-" ++ toString last ++ "/" ++ toString size

def endHeaders (handler : OtaRequestHandler) (headers : List (String × String)) :
    List (String × String) :=
  headers ++ if handler.honourRange then [("Accept-Ranges", "bytes")] else []

/-- `SimpleHTTPRequestHandler.send_head()`, for a file that can be opened. -/
def stockSendHead (handler : OtaRequestHandler) (f : ImageFile) : Response where
  status := 200
  headers := endHeaders handler
    [("Content-type", f.contentType), ("Content-Length", toString f.size),
      ("Last-Modified", f.lastModified)]
  body := some f.content

/-- The answer to a range that selects nothing. -/
def notSatisfiable (handler : OtaRequestHandler) (f : ImageFile) : Response where
  status := 416
  headers := endHeaders handler
    [("Content-Range", "bytes */" ++ toString f.size), ("Content-Length", "0")]
  body := none

/-- The answer that sends a slice. -/
def partialContent (handler : OtaRequestHandler) (f : ImageFile) (first last : Nat) : Response :=
  let body := (f.content.drop first).take (last - first + 1)
  { status := 206
    headers := endHeaders handler
      [("Content-Type", f.contentType), ("Content-Range", renderContentRange first last f.size),
        ("Content-Length", toString body.length), ("Last-Modified", f.lastModified)]
    body := some body }

def sendHead (handler : OtaRequestHandler) (target : Target) (range : Option String) : Response :=
  let byteRange := if handler.honourRange then range else none
  match byteRange, target with
  | _, .other response => response
  | none, .file f => stockSendHead handler f
  | some byteRange, .file f =>
    match parseRange byteRange f.size with
    | .error _ => notSatisfiable handler f
    | .ok none => stockSendHead handler f
    | .ok (some (first, last)) => partialContent handler f first last

/-! ## What an answer says of itself -/

/-- `int()` of a string of digits. -/
def readNumber (text : String) : Option Nat :=
  if text.toList ≠ [] ∧ text.toList.all Char.isDigit then some (number text.toList) else none

theorem readNumber_toString (n : Nat) : readNumber (toString n) = some n := by
  have hlist : (toString n).toList = digits n := Nat.toList_repr
  have hall : (digits n).all Char.isDigit = true := List.all_eq_true.mpr (digits_digits n)
  rw [readNumber, hlist, if_pos ⟨digits_ne_nil n, hall⟩, number_digits]

def Response.contentLength (r : Response) : Option Nat :=
  (r.getheader "Content-Length").bind readNumber

/-- The length that is announced is the length of what follows. -/
def Response.Framed (r : Response) : Prop := r.contentLength = some (r.body.getD []).length

section Answers

variable {handler : OtaRequestHandler} {f : ImageFile} {range : Option String}

theorem stockSendHead_framed : (stockSendHead handler f).Framed :=
  readNumber_toString f.size

theorem notSatisfiable_framed : (notSatisfiable handler f).Framed := by
  change readNumber "0" = some 0
  decide

theorem partialContent_framed {first last : Nat} : (partialContent handler f first last).Framed :=
  readNumber_toString _

/-- There are three answers to a request for a file. -/
theorem sendHead_cases (handler : OtaRequestHandler) (f : ImageFile) (range : Option String) :
    sendHead handler (.file f) range = stockSendHead handler f ∨
      sendHead handler (.file f) range = notSatisfiable handler f ∨
      ∃ header first last, handler.honourRange = true ∧ range = some header ∧
        parseRange header f.size = .ok (some (first, last)) ∧
        sendHead handler (.file f) range = partialContent handler f first last := by
  unfold sendHead
  cases hh : handler.honourRange with
  | false => exact .inl rfl
  | true =>
    cases range with
    | none => exact .inl rfl
    | some header =>
      cases hp : parseRange header f.size with
      | error e => exact .inr (.inl (by simp [hp]))
      | ok bounds =>
        cases bounds with
        | none => exact .inl (by simp [hp])
        | some bounds => exact .inr (.inr ⟨header, bounds.1, bounds.2, rfl, rfl, hp, by simp [hp]⟩)

theorem sendHead_framed : (sendHead handler (.file f) range).Framed := by
  obtain h | h | ⟨_, _, _, _, _, _, h⟩ := sendHead_cases handler f range
  · rw [h]
    exact stockSendHead_framed
  · rw [h]
    exact notSatisfiable_framed
  · rw [h]
    exact partialContent_framed

end Answers

end OtaApi
