import LogAdmission.Proofs.Sink.Stream

/-!
# Requests to a writer

What a writer is asked while bytes are offered to it, request by request. Each request offers
what the one before it has left (`isChain_requests`), and the script answers them in turn. What is
taken, the reason to give up and the responses that are left are all told by the requests
(`writeAll_requests`).
-/

namespace LogAdmission

/-- A request to a writer: the bytes it is offered, and how it responds. -/
structure WriteRequest where
  offered : List UInt8
  response : Response

namespace Response

/-- The part of the offered bytes that is taken. -/
def share (offered : List UInt8) : Response → List UInt8
  | takeAll => offered
  | takeUpTo limit => offered.take limit
  | interrupted | fail _ => []

/-- The part of the offered bytes that is not taken. -/
def rest (offered : List UInt8) : Response → List UInt8
  | takeAll => []
  | takeUpTo limit => offered.drop limit
  | interrupted | fail _ => offered

/-- The reason to give up. An interruption is none. -/
def refusal : Response → Option String
  | takeUpTo limit => if limit = 0 then some "failed to write whole buffer" else none
  | fail reason => some reason
  | takeAll | interrupted => none

theorem refusal_takeUpTo {limit : Nat} (hlimit : limit ≠ 0) : (takeUpTo limit).refusal = none :=
  if_neg hlimit

end Response

namespace WriteRequest

/-- The bytes taken. -/
def taken (q : WriteRequest) : List UInt8 :=
  q.response.share q.offered

/-- The bytes that are left to be offered. -/
def left (q : WriteRequest) : List UInt8 :=
  q.response.rest q.offered

/-- The reason to give up. -/
def refusal (q : WriteRequest) : Option String :=
  q.response.refusal

end WriteRequest

/-- The requests by which bytes are offered to a writer with a script. -/
def requests : List Response → List UInt8 → List WriteRequest
  | _, [] => []
  | [], bytes => [⟨bytes, .takeAll⟩]
  | response :: script, bytes =>
    let q : WriteRequest := ⟨bytes, response⟩
    q :: if q.refusal.isSome then [] else requests script q.left

theorem requests_nil (script : List Response) : requests script [] = [] := by
  cases script <;> rfl

theorem requests_cons {bytes : List UInt8} (hne : bytes ≠ []) (response : Response)
    (script : List Response) :
    requests (response :: script) bytes =
      let q : WriteRequest := ⟨bytes, response⟩
      q :: if q.refusal.isSome then [] else requests script q.left := by
  cases bytes with
  | nil => exact absurd rfl hne
  | cons b bytes => rfl

/-- The first request offers all bytes. -/
theorem head?_requests (script : List Response) {bytes : List UInt8} (hne : bytes ≠ []) :
    (requests script bytes).head?.map WriteRequest.offered = some bytes := by
  cases script with
  | nil =>
      cases bytes with
      | nil => exact absurd rfl hne
      | cons b bytes => rfl
  | cons response script =>
      rw [requests_cons hne]
      rfl

/-- Each request offers what the one before it has left. -/
theorem isChain_requests (script : List Response) (bytes : List UInt8) :
    (requests script bytes).IsChain fun q next => next.offered = q.left := by
  induction script generalizing bytes with
  | nil =>
      cases bytes with
      | nil => exact .nil
      | cons b bytes => exact .singleton _
  | cons response script ih =>
      by_cases hne : bytes = []
      · rw [hne, requests_nil]
        exact .nil
      · rw [requests_cons hne]
        show ((⟨bytes, response⟩ : WriteRequest) :: _).IsChain _
        split
        · exact .singleton _
        · by_cases hleft : (⟨bytes, response⟩ : WriteRequest).left = []
          · rw [hleft, requests_nil]
            exact .singleton _
          · have hhead := head?_requests script hleft
            have hchain := ih (⟨bytes, response⟩ : WriteRequest).left
            cases hmore : requests script (⟨bytes, response⟩ : WriteRequest).left with
            | nil => exact .singleton _
            | cons next later =>
                rw [hmore] at hhead hchain
                exact List.isChain_cons_cons.mpr ⟨Option.some.inj hhead, hchain⟩

/-- Requests are answered by the script in turn, and by taking everything behind its end. -/
theorem response_of_getElem?_requests {script : List Response} {bytes : List UInt8} {k : Nat}
    {q : WriteRequest} (hq : (requests script bytes)[k]? = some q) :
    q.response = script[k]?.getD .takeAll := by
  induction script generalizing bytes k with
  | nil =>
      cases bytes with
      | nil => cases hq
      | cons b bytes =>
          cases k with
          | zero =>
              cases hq
              rfl
          | succ k => cases hq
  | cons response script ih =>
      by_cases hne : bytes = []
      · rw [hne, requests_nil] at hq
        cases hq
      · rw [requests_cons hne] at hq
        cases k with
        | zero =>
            cases hq
            rfl
        | succ k =>
            rw [List.getElem?_cons_succ] at hq ⊢
            split at hq
            · cases hq
            · exact ih hq

/-- **What comes of offering bytes is told by the requests.** -/
theorem writeAll_requests (script : List Response) (bytes : List UInt8) :
    (writeAll script bytes).pieces.flatten = (requests script bytes).flatMap WriteRequest.taken ∧
      (writeAll script bytes).failure = (requests script bytes).findSome? WriteRequest.refusal ∧
      (writeAll script bytes).script = script.drop (requests script bytes).length := by
  fun_induction writeAll script bytes with
  | case1 script =>
      rw [requests_nil]
      exact ⟨rfl, rfl, rfl⟩
  | case2 bytes hne =>
      cases bytes with
      | nil => exact absurd rfl hne
      | cons b bytes => exact ⟨rfl, rfl, rfl⟩
  | case3 script bytes hne =>
      have hone : requests (.takeAll :: script) bytes = [⟨bytes, .takeAll⟩] := by
        rw [requests_cons hne]
        exact congrArg _ (requests_nil script)
      rw [hone]
      exact ⟨rfl, rfl, rfl⟩
  | case4 script bytes hne =>
      have hone : requests (.takeUpTo 0 :: script) bytes = [⟨bytes, .takeUpTo 0⟩] :=
        requests_cons hne _ script
      rw [hone]
      exact ⟨rfl, rfl, rfl⟩
  | case5 limit script bytes hne hlimit ih =>
      have hmore : requests (.takeUpTo limit :: script) bytes =
          ⟨bytes, .takeUpTo limit⟩ :: requests script (bytes.drop limit) := by
        simp only [requests_cons hne, WriteRequest.refusal, Response.refusal_takeUpTo hlimit,
          Option.isSome_none, Bool.false_eq_true, if_false, WriteRequest.left, Response.rest]
      obtain ⟨htaken, hfailure, hscript⟩ := ih
      rw [hmore]
      refine ⟨?_, ?_, hscript⟩
      · rw [Written.cons, List.flatten_cons, htaken]
        rfl
      · rw [List.findSome?_cons, WriteRequest.refusal, Response.refusal_takeUpTo hlimit]
        exact hfailure
  | case6 script bytes hne ih =>
      have hmore : requests (.interrupted :: script) bytes =
          ⟨bytes, .interrupted⟩ :: requests script bytes := requests_cons hne _ script
      rw [hmore]
      exact ih
  | case7 reason script bytes hne =>
      have hone : requests (.fail reason :: script) bytes = [⟨bytes, .fail reason⟩] :=
        requests_cons hne _ script
      rw [hone]
      exact ⟨rfl, rfl, rfl⟩

/-- The bytes are taken up to some place, and all of them unless a request is refused. -/
theorem taken_requests (script : List Response) (bytes : List UInt8) :
    ∃ rest, (requests script bytes).flatMap WriteRequest.taken ++ rest = bytes ∧
      ((requests script bytes).findSome? WriteRequest.refusal = none ↔ rest = []) := by
  obtain ⟨htaken, hfailure, -⟩ := writeAll_requests script bytes
  rw [← htaken, ← hfailure]
  exact writeAll_taken script bytes

end LogAdmission
