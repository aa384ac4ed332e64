import OtaApi.OtaServer

/-!
# A download in ranges

`walk_like_esp_https_ota()` of the tests: the client asks for one range after the
other until it has the whole image. Client and server share a connection, on which
what is left unread of one answer would be in the way of the next.
-/

namespace OtaApi

open ByteRange

inductive Method where
  | get | head
  deriving DecidableEq, Repr

/-- The client's end of a connection. -/
structure Connection where
  isOpen : Bool
  unread : List UInt8
  deriving DecidableEq, Repr

def Connection.close (_ : Connection) : Connection := ⟨false, []⟩

/-- One request with its answer, and the body as the client has read it. -/
structure Exchange where
  byteRange : Option String
  response : Response
  body : List UInt8
  deriving DecidableEq, Repr

/-- The file object is copied to the connection by `do_GET()` only. -/
def written (method : Method) (response : Response) : List UInt8 :=
  match method with
  | .get => response.body.getD []
  | .head => []

/-- How much of it the client reads: as much as was announced, or all there is. -/
def bodyLength (method : Method) (response : Response) : Nat :=
  match method with
  | .get => response.contentLength.getD (written method response).length
  | .head => 0

/-- `request()`: no answer if the connection is out of step, or ends too early. -/
def request (handler : OtaRequestHandler) (target : Target) (conn : Connection) (method : Method)
    (byteRange : Option String) : Option (Exchange × Connection) :=
  if conn.isOpen = true ∧ conn.unread ≠ [] then none
  else
    let response := sendHead handler target byteRange
    let sent := written method response
    let length := bodyLength method response
    if sent.length < length then none
    else some (⟨byteRange, response, sent.take length⟩, ⟨handler.keepAlive, sent.drop length⟩)

/-- `f'bytes={start}-'` -/
def renderOpenRange (start : Nat) : String := "bytes=" ++ toString start ++ "-"

/-- The range of the next request, while something is missing. -/
def nextRange (imageLength maxRequest start : Nat) : String :=
  if imageLength - start > maxRequest then renderRange start (start + maxRequest - 1)
  else renderOpenRange start

/-- What has been received so far, in which requests. -/
structure Walk where
  received : List UInt8
  exchanges : List Exchange
  deriving DecidableEq, Repr

def Walk.statuses (w : Walk) : List Nat := w.exchanges.map fun e => e.response.status

def Walk.add (w : Walk) (e : Exchange) : Walk := ⟨w.received ++ e.body, w.exchanges ++ [e]⟩

/-- The loop of the walk. -/
def walkFrom (handler : OtaRequestHandler) (target : Target) (maxRequest : Nat) (keepAlive : Bool)
    (imageLength : Nat) : Nat → Connection → Walk → Option String → Option Walk
  | 0, _, _, _ => none
  | fuel + 1, conn, w, byteRange => do
    let (exchange, conn) ← request handler target conn .get byteRange
    let w := w.add exchange
    if w.received.length ≥ imageLength then pure w
    else
      let conn := if keepAlive then conn else conn.close
      let byteRange := nextRange imageLength maxRequest w.received.length
      walkFrom handler target maxRequest keepAlive imageLength fuel conn w (some byteRange)

def walkLikeEspHttpsOta (handler : OtaRequestHandler) (target : Target) (maxRequest : Nat)
    (keepAlive : Bool) (fuel : Nat) : Option Walk := do
  let (head, conn) ← request handler target ⟨false, []⟩ .head none
  let imageLength ← head.response.contentLength
  let conn := if keepAlive then conn else conn.close
  let byteRange := if imageLength > maxRequest then some (renderRange 0 (maxRequest - 1)) else none
  walkFrom handler target maxRequest keepAlive imageLength fuel conn ⟨[], []⟩ byteRange

/-- Nothing is left of an earlier answer. -/
def Connection.Ready (conn : Connection) : Prop := conn.unread = []

section Requests

variable {handler : OtaRequestHandler} {f : ImageFile} {conn : Connection} {range : Option String}

/-- A request for a file is answered, and its body is read to the end. -/
theorem request_get (h : conn.Ready) : request handler (.file f) conn .get range =
    some (⟨range, sendHead handler (.file f) range,
      (sendHead handler (.file f) range).body.getD []⟩, ⟨handler.keepAlive, []⟩) := by
  have hframed : (sendHead handler (.file f) range).Framed := sendHead_framed
  have hlength : bodyLength .get (sendHead handler (.file f) range) =
      ((sendHead handler (.file f) range).body.getD []).length := by
    rw [bodyLength, hframed, Option.getD_some]
  have hready : ¬ (conn.isOpen = true ∧ conn.unread ≠ []) := fun hc => hc.2 h
  rw [request, if_neg hready]
  simp only [hlength, written, Nat.lt_irrefl, if_false, List.take_length, List.drop_length]

theorem request_head (h : conn.Ready) : request handler (.file f) conn .head none =
    some (⟨none, stockSendHead handler f, []⟩, ⟨handler.keepAlive, []⟩) := by
  have hready : ¬ (conn.isOpen = true ∧ conn.unread ≠ []) := fun hc => hc.2 h
  have hstock : sendHead handler (.file f) none = stockSendHead handler f := by
    cases hh : handler.honourRange <;> simp [sendHead, hh]
  rw [request, if_neg hready, hstock]
  rfl

theorem walkFrom_succ {target : Target} {maxRequest imageLength fuel : Nat} {keepAlive : Bool} {w : Walk}
    {conn conn' : Connection} {range : Option String} {e : Exchange}
    (h : request handler target conn .get range = some (e, conn')) :
    walkFrom handler target maxRequest keepAlive imageLength (fuel + 1) conn w range =
      if imageLength ≤ (w.add e).received.length then some (w.add e)
      else walkFrom handler target maxRequest keepAlive imageLength fuel
        (if keepAlive then conn' else conn'.close) (w.add e)
        (some (nextRange imageLength maxRequest (w.add e).received.length)) := by
  rw [walkFrom, h]
  rfl

end Requests

/-! ## Slice after slice -/

/-- An answer that sends a slice of the file, and says which. -/
structure Sliced (f : ImageFile) (e : Exchange) : Prop where
  status : e.response.status = 206
  contentLength : e.response.getheader "Content-Length" = some (toString e.body.length)
  contentRange : ∃ first last, first ≤ last ∧ last < f.size ∧
    e.response.getheader "Content-Range" = some (renderContentRange first last f.size) ∧
    e.body = slice f.content first last

section Ranged

variable {handler : OtaRequestHandler} {f : ImageFile} {conn : Connection} {maxRequest start : Nat}

theorem renderOpenRange_asks (start : Nat) : Asks (renderOpenRange start) (.openEnded start) := by
  have hwritten : Written (rangeText (digits start) []) (.openEnded start) := by
    have hw := Written.openEnded (digits_digits start) (digits_ne_nil start)
    rwa [number_digits] at hw
  refine ⟨[], _, [], ?_, by simp, by simp, hwritten⟩
  simp [renderOpenRange, rangeText, digits, unitText, Nat.toList_repr]

/-- The server reads the range as the client means it. -/
theorem parse_nextRange {size : Nat} (hm : 1 ≤ maxRequest) (hs : start < size) :
    parseRange (nextRange size maxRequest start) size =
      .ok (some (start, min (start + maxRequest) size - 1)) := by
  unfold nextRange
  split
  · have hinv : ¬ (Range.bounded start (start + maxRequest - 1)).Inverted := by
      rw [Range.Inverted]
      omega
    have hmiss : ¬ (Range.bounded start (start + maxRequest - 1)).Misses size := Nat.not_le.mpr hs
    have hlast : min (start + maxRequest - 1) (size - 1) = min (start + maxRequest) size - 1 := by omega
    rw [parseRange_asks (renderRange_asks _ _), if_neg hinv, if_neg hmiss, Range.clamp, hlast]
  · have hinv : ¬ (Range.openEnded start).Inverted := id
    have hmiss : ¬ (Range.openEnded start).Misses size := Nat.not_le.mpr hs
    have hlast : size - 1 = min (start + maxRequest) size - 1 := by omega
    rw [parseRange_asks (renderOpenRange_asks _), if_neg hinv, if_neg hmiss, Range.clamp, hlast]

/-- The request for the next slice, with its answer. -/
def nextSlice (handler : OtaRequestHandler) (f : ImageFile) (maxRequest start : Nat) : Exchange where
  byteRange := some (nextRange f.size maxRequest start)
  response := partialContent handler f start (min (start + maxRequest) f.size - 1)
  body := slice f.content start (min (start + maxRequest) f.size - 1)

theorem request_nextSlice (hh : handler.honourRange = true) (hm : 1 ≤ maxRequest)
    (hs : start < f.size) (hready : conn.Ready) :
    request handler (.file f) conn .get (some (nextRange f.size maxRequest start)) =
      some (nextSlice handler f maxRequest start, ⟨handler.keepAlive, []⟩) := by
  have hanswer : sendHead handler (.file f) (some (nextRange f.size maxRequest start)) =
      partialContent handler f start (min (start + maxRequest) f.size - 1) := by
    simp only [sendHead, hh, if_true, parse_nextRange hm hs]
  rw [request_get hready, hanswer]
  rfl

theorem nextSlice_sliced (hm : 1 ≤ maxRequest) (hs : start < f.size) :
    Sliced f (nextSlice handler f maxRequest start) where
  status := rfl
  contentLength := rfl
  contentRange := ⟨start, min (start + maxRequest) f.size - 1, by omega, by omega, rfl, rfl⟩

/-- A slice takes the image on by as much as was asked for, or to its end. -/
theorem take_append_nextSlice (hm : 1 ≤ maxRequest) (hs : start < f.size) :
    f.content.take start ++ (nextSlice handler f maxRequest start).body =
      f.content.take (start + maxRequest) := by
  have hle : start ≤ min (start + maxRequest) f.size - 1 := by omega
  have hend : min (start + maxRequest) f.size - 1 + 1 = min (start + maxRequest) f.size := by omega
  rw [nextSlice, take_append_slice hle, hend, ImageFile.size, List.take_eq_take_iff]
  omega

/-- The requests it takes to get so many bytes. -/
def requestsFor (maxRequest left : Nat) : Nat := (left + maxRequest - 1) / maxRequest

theorem requestsFor_last {left : Nat} (hl : 1 ≤ left) (h : left ≤ maxRequest) :
    requestsFor maxRequest left = 1 := by
  rw [requestsFor]
  apply Nat.div_eq_of_lt_le
  · omega
  · omega

theorem requestsFor_pos {left : Nat} (hm : 1 ≤ maxRequest) (hl : 1 ≤ left) :
    1 ≤ requestsFor maxRequest left := by
  rw [requestsFor]
  apply Nat.div_pos
  · omega
  · omega

theorem requestsFor_more {left : Nat} (hm : 1 ≤ maxRequest) (h : maxRequest < left) :
    requestsFor maxRequest left = requestsFor maxRequest (left - maxRequest) + 1 := by
  have hsplit : left + maxRequest - 1 = left - maxRequest + maxRequest - 1 + maxRequest := by omega
  rw [requestsFor, requestsFor, hsplit, Nat.add_div_right _ hm]

/-- One pass of the loop: it receives the next slice, and is done with the last one. -/
theorem walkFrom_pass {keepAlive : Bool} {w : Walk} (fuel : Nat) (hh : handler.honourRange = true)
    (hm : 1 ≤ maxRequest) (hs : start < f.size) (hready : conn.Ready)
    (hw : w.received = f.content.take start) :
    (w.add (nextSlice handler f maxRequest start)).received = f.content.take (start + maxRequest) ∧
    ∃ conn', Connection.Ready conn' ∧
      walkFrom handler (.file f) maxRequest keepAlive f.size (fuel + 1) conn w
          (some (nextRange f.size maxRequest start)) =
        if f.size - start ≤ maxRequest then some (w.add (nextSlice handler f maxRequest start))
        else walkFrom handler (.file f) maxRequest keepAlive f.size fuel conn'
          (w.add (nextSlice handler f maxRequest start))
          (some (nextRange f.size maxRequest (start + maxRequest))) := by
  have hreceived : (w.add (nextSlice handler f maxRequest start)).received =
      f.content.take (start + maxRequest) := by
    rw [Walk.add, hw]
    exact take_append_nextSlice hm hs
  have hlength : (w.add (nextSlice handler f maxRequest start)).received.length =
      min (start + maxRequest) f.size := by
    rw [hreceived]
    exact List.length_take
  refine ⟨hreceived, if keepAlive then ⟨handler.keepAlive, []⟩ else ⟨false, []⟩, ?_, ?_⟩
  · cases keepAlive <;> rfl
  · rw [walkFrom_succ (request_nextSlice hh hm hs hready), hlength]
    by_cases hend : f.size - start ≤ maxRequest
    · rw [if_pos (by omega), if_pos hend]
    · have hmin : min (start + maxRequest) f.size = start + maxRequest := by omega
      rw [if_neg (by omega), if_neg hend, hmin]
      rfl

/-- The loop goes through the slices that are left, and no further. -/
theorem walkFrom_ranged {keepAlive : Bool} {w : Walk} {fuel : Nat} (hh : handler.honourRange = true)
    (hm : 1 ≤ maxRequest) (hs : start < f.size) (hready : conn.Ready)
    (hw : w.received = f.content.take start)
    (hfuel : requestsFor maxRequest (f.size - start) ≤ fuel) :
    ∃ es, walkFrom handler (.file f) maxRequest keepAlive f.size fuel conn w
        (some (nextRange f.size maxRequest start)) = some ⟨f.content, w.exchanges ++ es⟩ ∧
      es.length = requestsFor maxRequest (f.size - start) ∧ (∀ e ∈ es, Sliced f e) ∧
      f.content.take start ++ es.flatMap Exchange.body = f.content := by
  induction fuel generalizing start conn w with
  | zero =>
    have hpos : 1 ≤ requestsFor maxRequest (f.size - start) := requestsFor_pos hm (by omega)
    omega
  | succ fuel ih =>
    obtain ⟨hreceived, conn', hready', hpass⟩ :=
      @walkFrom_pass handler f conn maxRequest start keepAlive w fuel hh hm hs hready hw
    have hsliced : Sliced f (nextSlice handler f maxRequest start) := nextSlice_sliced hm hs
    have hbody := @take_append_nextSlice handler f maxRequest start hm hs
    rw [hpass]
    by_cases hend : f.size - start ≤ maxRequest
    · have hall : f.content.take (start + maxRequest) = f.content := by
        apply List.take_of_length_le
        change f.size ≤ _
        omega
      rw [hall] at hreceived hbody
      refine ⟨[nextSlice handler f maxRequest start], ?_, (requestsFor_last (by omega) hend).symm,
        by simpa using hsliced, ?_⟩
      · rw [if_pos hend, ← hreceived]
        rfl
      · rw [List.flatMap_singleton, hbody]
    · have hmore := requestsFor_more hm (show maxRequest < f.size - start by omega)
      have hleft : f.size - start - maxRequest = f.size - (start + maxRequest) := by omega
      rw [hleft] at hmore
      obtain ⟨es, hrun, hlength, hall, hrest⟩ := ih (by omega) hready' hreceived (by omega)
      refine ⟨nextSlice handler f maxRequest start :: es, ?_, ?_,
        List.forall_mem_cons.mpr ⟨hsliced, hall⟩, ?_⟩
      · rw [if_neg hend, hrun, Walk.add, List.append_assoc]
        rfl
      · rw [List.length_cons, hlength, hmore]
      · rw [List.flatMap_cons, ← List.append_assoc, hbody, hrest]

end Ranged

/-! ## The whole walk -/

section Whole

variable {handler : OtaRequestHandler} {f : ImageFile} {maxRequest : Nat} {keepAlive : Bool}

/-- The walk knows the length of the image when it starts. -/
theorem walk_head (handler : OtaRequestHandler) (f : ImageFile) (maxRequest : Nat) (keepAlive : Bool) :
    ∃ conn, Connection.Ready conn ∧ ∀ fuel,
      walkLikeEspHttpsOta handler (.file f) maxRequest keepAlive fuel =
        walkFrom handler (.file f) maxRequest keepAlive f.size fuel conn ⟨[], []⟩
          (if f.size > maxRequest then some (renderRange 0 (maxRequest - 1)) else none) := by
  have hlength : (stockSendHead handler f).contentLength = some f.size := stockSendHead_framed
  have hready : Connection.Ready ⟨false, []⟩ := rfl
  refine ⟨if keepAlive then ⟨handler.keepAlive, []⟩ else ⟨false, []⟩, ?_, ?_⟩
  · cases keepAlive <;> rfl
  · intro fuel
    simp only [walkLikeEspHttpsOta, request_head hready, Option.bind_eq_bind, Option.bind_some, hlength]
    rfl

/-- An answer with the whole file ends the walk. -/
theorem walkFrom_whole {conn : Connection} {range : Option String} (fuel : Nat)
    (hready : conn.Ready)
    (hstock : sendHead handler (.file f) range = stockSendHead handler f) :
    walkFrom handler (.file f) maxRequest keepAlive f.size (fuel + 1) conn ⟨[], []⟩ range =
      some ⟨f.content, [⟨range, stockSendHead handler f, f.content⟩]⟩ := by
  have hrequest := @request_get handler f conn range hready
  rw [hstock] at hrequest
  rw [walkFrom_succ hrequest]
  exact if_pos (Nat.le_refl f.size)

/-- A download that puts the image together again. -/
structure Reassembles (handler : OtaRequestHandler) (f : ImageFile) (maxRequest : Nat) (w : Walk) :
    Prop where
  received : w.received = f.content
  bodies : w.exchanges.flatMap Exchange.body = f.content
  requests : handler.honourRange = true → w.exchanges.length = requestsFor maxRequest f.size
  ranged : handler.honourRange = true → maxRequest < f.size → ∀ e ∈ w.exchanges, Sliced f e
  single : handler.honourRange = true → f.size ≤ maxRequest → w.statuses = [200]
  ignored : handler.honourRange = false → w.statuses = [200]

theorem reassembles_whole {range : Option String}
    (hcount : handler.honourRange = true → f.size ≤ maxRequest) (hn : 1 ≤ f.size) :
    Reassembles handler f maxRequest ⟨f.content, [⟨range, stockSendHead handler f, f.content⟩]⟩ where
  received := rfl
  bodies := List.flatMap_singleton _ _
  requests hh := (requestsFor_last hn (hcount hh)).symm
  ranged hh hlt := absurd (hcount hh) (Nat.not_le.mpr hlt)
  single _ _ := rfl
  ignored _ := rfl

/-- With as much fuel as there are requests to make the walk comes to its end. -/
theorem walk_ends (handler : OtaRequestHandler) (f : ImageFile) (keepAlive : Bool)
    (hn : 1 ≤ f.size) (hm : 1 ≤ maxRequest) :
    ∃ w, walkLikeEspHttpsOta handler (.file f) maxRequest keepAlive (requestsFor maxRequest f.size) =
      some w ∧ Reassembles handler f maxRequest w := by
  obtain ⟨conn, hready, hwalk⟩ := walk_head handler f maxRequest keepAlive
  rw [hwalk]
  cases hh : handler.honourRange with
  | false =>
    have hstock : ∀ range, sendHead handler (.file f) range = stockSendHead handler f := by
      intro range
      simp [sendHead, hh]
    obtain ⟨fuel, hfuel⟩ : ∃ k, requestsFor maxRequest f.size = k + 1 :=
      ⟨_, (Nat.sub_add_cancel (requestsFor_pos hm hn)).symm⟩
    rw [hfuel]
    refine ⟨_, walkFrom_whole fuel hready (hstock _), reassembles_whole (fun h => ?_) hn⟩
    rw [hh] at h
    cases h
  | true =>
    by_cases hlt : maxRequest < f.size
    · have hfirst : renderRange 0 (maxRequest - 1) = nextRange f.size maxRequest 0 := by
        rw [nextRange, Nat.sub_zero, if_pos hlt, Nat.zero_add]
      obtain ⟨es, hrun, hlength, hsliced, hbodies⟩ :=
        @walkFrom_ranged handler f conn maxRequest 0 keepAlive ⟨[], []⟩ _ hh hm hn hready rfl
          (Nat.le_refl _)
      rw [if_pos hlt, hfirst]
      refine ⟨_, hrun, rfl, hbodies, fun _ => hlength, fun _ _ => hsliced, fun _ hle => ?_, fun h => ?_⟩
      · exact absurd hlt (Nat.not_lt.mpr hle)
      · rw [hh] at h
        cases h
    · have hle : f.size ≤ maxRequest := Nat.not_lt.mp hlt
      rw [if_neg hlt, requestsFor_last hn hle]
      have hstock : sendHead handler (.file f) none = stockSendHead handler f := by
        simp [sendHead]
      exact ⟨_, walkFrom_whole 0 hready hstock, reassembles_whole (fun _ => hle) hn⟩

/-- More fuel changes nothing. -/
theorem walkFrom_mono {imageLength n k : Nat} {target : Target} {conn : Connection} {w r : Walk}
    {range : Option String} (hnk : n ≤ k)
    (h : walkFrom handler target maxRequest keepAlive imageLength n conn w range = some r) :
    walkFrom handler target maxRequest keepAlive imageLength k conn w range = some r := by
  induction n generalizing k conn w range with
  | zero => cases h
  | succ n ih =>
    obtain ⟨k, rfl⟩ : ∃ j, k = j + 1 := ⟨k - 1, by omega⟩
    obtain ⟨⟨e, conn'⟩, hrequest, _⟩ := Option.bind_eq_some_iff.mp h
    rw [walkFrom_succ hrequest] at h ⊢
    by_cases hend : imageLength ≤ (w.add e).received.length
    · rwa [if_pos hend] at h ⊢
    · rw [if_neg hend] at h ⊢
      exact ih (by omega) h

/-- Every image comes through whole, in slices of every size. -/
theorem walk_reassembles (handler : OtaRequestHandler) (f : ImageFile) (maxRequest : Nat)
    (keepAlive : Bool) (hn : 1 ≤ f.size) (hm : 1 ≤ maxRequest) :
    ∃ w, (∀ fuel, requestsFor maxRequest f.size ≤ fuel →
        walkLikeEspHttpsOta handler (.file f) maxRequest keepAlive fuel = some w) ∧
      Reassembles handler f maxRequest w := by
  obtain ⟨w, hrun, hwhole⟩ := walk_ends handler f keepAlive hn hm
  refine ⟨w, ?_, hwhole⟩
  intro fuel hfuel
  obtain ⟨conn, _, hwalk⟩ := walk_head handler f maxRequest keepAlive
  rw [hwalk] at hrun ⊢
  exact walkFrom_mono hfuel hrun

def sampleImage : ImageFile where
  content := [1, 2, 3, 4, 5, 6, 7]
  contentType := "application/octet-stream"
  lastModified := "Thu, 01 Jan 1970 00:00:00 GMT"

/-- Three slices of three bytes, the last of them a single byte. -/
theorem walk_reassembles_sampleImage :
    (∃ w, (∀ fuel, requestsFor 3 sampleImage.size ≤ fuel →
        walkLikeEspHttpsOta ⟨true, true⟩ (.file sampleImage) 3 true fuel = some w) ∧
      Reassembles ⟨true, true⟩ sampleImage 3 w) ∧
    (walkLikeEspHttpsOta ⟨true, true⟩ (.file sampleImage) 3 true 3).map
      (fun w => (w.statuses, w.exchanges.map Exchange.body)) =
        some ([206, 206, 206], [[1, 2, 3], [4, 5, 6], [7]]) :=
  ⟨walk_reassembles ⟨true, true⟩ sampleImage 3 true (by decide) (by decide), by decide +kernel⟩

end Whole

end OtaApi
