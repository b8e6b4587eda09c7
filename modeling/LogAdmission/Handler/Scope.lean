import LogAdmission.Handler.Basic
import LogAdmission.Notice

/-!
# Buffer scopes

A scope is opened for one request. It borrows a buffer from the pool of a
sampling buffer until its guard is released; what is then still held back is
discarded.
-/

namespace LogAdmission

/-- The right to close a scope: the pool and the buffer borrowed from it. -/
structure Guard where
  pool : Nat
  buffer : Nat
  deriving DecidableEq

namespace Handler

variable {κ σ : Type}

/-- The pool of a chain that begins with a sampling buffer. -/
def pool? : Handler κ σ → Option Nat
  | sampled policy _ => some policy.pool
  | _ => none

end Handler

namespace Store

variable {κ σ : Type}

/-- Adds a buffer. -/
def addBuffer (st : Store κ σ) (b : RecordBuffer (Entry κ σ)) : Nat × Store κ σ :=
  (st.freshBuffer,
    { st with buffers := st.buffers.put st.freshBuffer b, freshBuffer := st.freshBuffer + 1 })

/-- Finds a buffer for a scope: an idle one, or else a new one if its capacity allows. -/
def lendBuffer? (st : Store κ σ) (p : Pool) : Option Nat → Option (Nat × Store κ σ)
  | some i => some (i, st)
  | none => (RecordBuffer.create? p.bufferCapacity).map st.addBuffer

/-- Opens a scope: the context bound to it, and the guard that closes it. There is none if
no buffer can be had. -/
def openScope? (st : Store κ σ) (pool : Nat) (cx : Context) :
    Option (Context × Guard × Store κ σ) :=
  let p := st.pools pool
  let (idle, scope, p') := p.acquire
  match st.lendBuffer? p idle with
  | none => none
  | some (i, st) =>
    some (cx.bind ⟨i, scope⟩, ⟨pool, i⟩,
      { st with
        pools := st.pools.put pool p'
        buffers := st.buffers.put i ((st.buffers i).arm scope) })

/-- The store with one buffer in another state. -/
def putBuffer (st : Store κ σ) (i : Nat) (b : RecordBuffer (Entry κ σ)) : Store κ σ :=
  { st with buffers := st.buffers.put i b }

/-- The buffer that a pool lends next, its state before that, and the number of buffers
afterwards. -/
inductive Lends (st : Store κ σ) (pool : Nat) : Nat → RecordBuffer (Entry κ σ) → Nat → Prop where
  | idle {i : Nat} {rest : List Nat} (h : (st.pools pool).idle = i :: rest) :
      Lends st pool i (st.buffers i) st.freshBuffer
  | new (h : (st.pools pool).idle = [])
      (fits : (st.pools pool).bufferCapacity ≤ RecordBuffer.maxCapacity) :
      Lends st pool st.freshBuffer
        (.ofCapacity (st.pools pool).bufferCapacity (st.pools pool).bufferCapacity_pos)
        (st.freshBuffer + 1)

/-- A scope is opened with the buffer that the pool lends. There is none only if no buffer
is idle and a new one would be too large. -/
theorem openScope?_cases (st : Store κ σ) (pool : Nat) (cx : Context) :
    (st.openScope? pool cx = none ∧ (st.pools pool).idle = [] ∧
      RecordBuffer.maxCapacity < (st.pools pool).bufferCapacity) ∨
    ∃ i b freshBuffer, st.Lends pool i b freshBuffer ∧
      st.openScope? pool cx = some
        (cx.bind ⟨i, (st.pools pool).nextScope⟩, ⟨pool, i⟩,
          { st.putBuffer i (b.arm (st.pools pool).nextScope) with
            pools := st.pools.put pool (st.pools pool).acquire.2.2
            freshBuffer := freshBuffer }) := by
  have hpos := (st.pools pool).bufferCapacity_pos
  cases hidle : (st.pools pool).idle with
  | cons i rest =>
      refine .inr ⟨i, st.buffers i, st.freshBuffer, .idle hidle, ?_⟩
      simp only [openScope?, lendBuffer?, Pool.acquire, hidle, List.head?_cons]
      rfl
  | nil =>
      by_cases hfits : (st.pools pool).bufferCapacity ≤ RecordBuffer.maxCapacity
      · have hcreate : (RecordBuffer.create? (st.pools pool).bufferCapacity :
            Option (RecordBuffer (Entry κ σ))) = some (.ofCapacity _ hpos) :=
          dif_pos ⟨hpos, hfits⟩
        refine .inr ⟨_, _, _, .new hidle hfits, ?_⟩
        simp only [openScope?, lendBuffer?, Pool.acquire, hidle, List.head?_nil, hcreate,
          Option.map_some, addBuffer, Cells.put_self, Cells.put_put]
        rfl
      · have hcreate : (RecordBuffer.create? (st.pools pool).bufferCapacity :
            Option (RecordBuffer (Entry κ σ))) = none :=
          dif_neg fun h => hfits h.2
        refine .inl ⟨?_, rfl, Nat.lt_of_not_le hfits⟩
        simp [openScope?, lendBuffer?, Pool.acquire, hidle, hcreate]

/-- Closes a scope: the buffer is reset and goes back to its pool. A full pool drops it
and gives notice. -/
def closeScope (st : Store κ σ) (g : Guard) : List Notice × Store κ σ :=
  let st := { st with buffers := st.buffers.put g.buffer (st.buffers g.buffer).reset }
  let (room, p) := (st.pools g.pool).release g.buffer
  (if room then [] else [.poolFull p.size], { st with pools := st.pools.put g.pool p })

/-- The guard with the buffer that it holds. -/
def guardDescription (st : Store κ σ) (g : Guard) : String :=
  "BufferGuard \x7b buffer: Some(" ++ (st.buffers g.buffer).description ++ ") \x7d"

end Store

end LogAdmission
