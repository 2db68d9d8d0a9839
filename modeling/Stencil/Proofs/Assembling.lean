import Stencil.Bytecode.Assembly
import Stencil.Proofs.Numbering

/-!
# What assemblies do

What each request comes to, once and for all. Facts about assemblies are read off `Assembly.Grants`
and `Assembly.AsksTooMuch`, and not off the tasks.

* `Assembly.Grants`: what a request comes to that is granted;
* `Assembly.AsksTooMuch`: the requests that are refused;
* `Assembly.serves`: every request is granted, or refused and then nothing happens;
* `Assembly.Record`: the record of requests in order, one answer after the other.
-/

namespace Stencil

namespace Assembly

/-- The assembly with another target of the jump with the label. -/
def pointed (s : Assembly) (label : Nat) (target : UInt32) : Assembly :=
  { s with instructions := s.instructions.modify label (withTarget · target) }

/-- What a request comes to that is granted. -/
inductive Grants (s : Assembly) : Request → Option Nat → Assembly → Prop
  | setLine (line : UInt32) : Grants s (.setLine line) none { s with line }
  | emit (op : Opcode) (x y : UInt32) :
    Grants s (.emit op x y) (some s.instructions.size)
      { s with toBuilder := s.toBuilder.emit op x y }
  | emitJump (op : Opcode) (register : UInt32) :
    Grants s (.emitJump op register) (some s.instructions.size)
      { s with toBuilder := s.toBuilder.emit op (if op.isTargetFirst then 0 else register) 0 }
  | offset : Grants s .offset (some s.instructions.size) s
  | pointTo (label : Nat) (x : UInt32) : Grants s (.pointTo label x.toNat) none (s.pointed label x)
  | pointHere (label : Nat) {x : UInt32} (h : x.toNat = s.instructions.size) :
    Grants s (.pointHere label) none (s.pointed label x)
  | reserve {count : Nat} (h : s.registers + max count 1 < operandLimit) :
    Grants s (.reserve count) (some s.registers) { s with registers := s.registers + max count 1 }
  | known {c : Constant} {n : UInt32} (h : s.places.lookup c = some n) :
    Grants s (.constant c) (some n.toNat) s
  | new {c : Constant} {n : UInt32} (h : s.places.lookup c = none) (hn : n.toNat = s.pool.size) :
    Grants s (.constant c) (some n.toNat)
      { s with pool := s.pool.push c, places := (c, n) :: s.places }
  | enterLoop : Grants s .enterLoop none
      { s with depth := s.depth + 1, maxDepth := max s.maxDepth (s.depth + 1) }
  | exitLoop : Grants s .exitLoop none { s with depth := s.depth - 1 }

/-- A request asks for more than an operand can name. -/
inductive AsksTooMuch (s : Assembly) : Request → Extent → Prop
  | pointTo (label : Nat) {target : Nat} (h : operandLimit ≤ target) :
    AsksTooMuch s (.pointTo label target) .target
  | pointHere (label : Nat) (h : operandLimit ≤ s.instructions.size) :
    AsksTooMuch s (.pointHere label) .target
  | reserve {count : Nat} (h : operandLimit ≤ s.registers + max count 1) :
    AsksTooMuch s (.reserve count) .registers
  | constant {c : Constant} (h : s.places.lookup c = none) (hsize : operandLimit ≤ s.pool.size) :
    AsksTooMuch s (.constant c) .pool

/-- How a request ends: it is granted, or it asks for too much and nothing happens. -/
inductive Serves (s : Assembly) (r : Request) : Answer × Assembly → Prop
  | granted {answer : Option Nat} {t : Assembly} (h : s.Grants r answer t) :
    Serves s r (.ok answer, t)
  | refused {what : Extent} (h : s.AsksTooMuch r what) : Serves s r (.error (.tooLarge what), s)

/-- A number that does not fit ends a task, before anything else is done. -/
theorem run_operand {α : Type} (what : Extent) (n : Nat) (go : UInt32 → Task α) (s : Assembly) :
    (do let x ← operand what n; go x : Task α).run s = match operand what n with
      | .ok x => (go x).run s
      | .error e => (.error e, s) := by
  cases operand what n <;> rfl

theorem run_get {α : Type} (go : Assembly → Task α) (s : Assembly) :
    (do let t ← get; go t : Task α).run s = (go s).run s := rfl

theorem run_some (task : Task Nat) (s : Assembly) :
    (some <$> task).run s = ((task.run s).1.map some, (task.run s).2) := by
  rw [ExceptT.run_map]
  rfl

theorem serves_pointTo (s : Assembly) (label target : Nat) :
    s.Serves (.pointTo label target) (s.serve (.pointTo label target)) := by
  simp only [serve, Request.task, pointTo]
  rcases Nat.lt_or_ge target operandLimit with h | h
  · obtain ⟨x, hx, rfl⟩ := exists_operand .target h
    rw [hx]
    exact .granted (.pointTo label x)
  · rw [operand_of_le h]
    exact .refused (.pointTo label h)

theorem serves_pointHere (s : Assembly) (label : Nat) :
    s.Serves (.pointHere label) (s.serve (.pointHere label)) := by
  have hserve : s.serve (.pointHere label) = s.serve (.pointTo label s.instructions.size) := rfl
  rw [hserve]
  simp only [serve, Request.task, pointTo]
  rcases Nat.lt_or_ge s.instructions.size operandLimit with h | h
  · obtain ⟨x, hx, hsize⟩ := exists_operand .target h
    rw [hx]
    exact .granted (.pointHere label hsize)
  · rw [operand_of_le h]
    exact .refused (.pointHere label h)

theorem serves_reserve (s : Assembly) (count : Nat) :
    s.Serves (.reserve count) (s.serve (.reserve count)) := by
  simp only [serve, Request.task, run_some, reserve, run_get, run_operand]
  -- A count that does not fit by itself does not fit behind the registers before it either, so the
  -- two checks are one.
  rcases Nat.lt_or_ge (max count 1) operandLimit with hcount | hcount
  · obtain ⟨x, hx, hxcount⟩ := exists_operand .registers hcount
    rw [hx]
    rcases Nat.lt_or_ge (s.registers + max count 1) operandLimit with hafter | hafter
    · obtain ⟨y, hy, hyafter⟩ := exists_operand .registers hafter
      simp only [hxcount, hy]
      have hgrants := Grants.reserve (s := s) hafter
      rw [← hyafter] at hgrants
      exact .granted hgrants
    · simp only [hxcount, operand_of_le hafter]
      exact .refused (.reserve hafter)
  · rw [operand_of_le hcount]
    exact .refused (.reserve (Nat.le_add_left_of_le hcount))

theorem serves_constant (s : Assembly) (c : Constant) :
    s.Serves (.constant c) (s.serve (.constant c)) := by
  simp only [serve, Request.task, run_some, constant, run_get]
  cases hplace : s.places.lookup c with
  | some n => exact .granted (.known hplace)
  | none =>
    simp only [run_get, run_operand]
    rcases Nat.lt_or_ge s.pool.size operandLimit with hsize | hsize
    · obtain ⟨n, hn, hplaced⟩ := exists_operand .pool hsize
      rw [hn]
      exact .granted (.new hplace hplaced)
    · rw [operand_of_le hsize]
      exact .refused (.constant hplace hsize)

/-- Every request is granted, or it is refused because it asks for too much. -/
theorem serves (s : Assembly) (r : Request) : s.Serves r (s.serve r) := by
  cases r with
  | setLine line => exact .granted (.setLine line)
  | emit op x y => exact .granted (.emit op x y)
  | emitJump op register => exact .granted (.emitJump op register)
  | offset => exact .granted .offset
  | pointTo label target => exact s.serves_pointTo label target
  | pointHere label => exact s.serves_pointHere label
  | reserve count => exact s.serves_reserve count
  | constant c => exact s.serves_constant c
  | enterLoop => exact .granted .enterLoop
  | exitLoop => exact .granted .exitLoop

/-- Who asks for too much is granted nothing. -/
theorem AsksTooMuch.not_grants {s t : Assembly} {r : Request} {what : Extent}
    (h : s.AsksTooMuch r what) (answer : Option Nat) : ¬s.Grants r answer t := by
  intro hgrants
  cases hgrants with
  | pointTo label x =>
    cases h with
    | pointTo _ h => exact absurd x.toNat_lt (Nat.not_lt.2 h)
  | @pointHere label x hx =>
    cases h with
    | pointHere _ h => exact absurd x.toNat_lt (Nat.not_lt.2 (hx ▸ h))
  | reserve hfits =>
    cases h with
    | reserve h => exact absurd hfits (Nat.not_lt.2 h)
  | known hplace =>
    cases h with
    | constant hnone _ => exact nomatch hplace.symm.trans hnone
  | @new c n _ hn =>
    cases h with
    | constant _ hsize => exact absurd n.toNat_lt (Nat.not_lt.2 (hn ▸ hsize))
  | setLine _ | emit _ _ _ | emitJump _ _ | offset | enterLoop | exitLoop => cases h

/-! ### Records -/

/-- The record of requests in order, and the assembly after them. -/
inductive Record : Assembly → List (Request × Answer) → Assembly → Prop
  | nil (s : Assembly) : Record s [] s
  | cons {s t u : Assembly} {r : Request} {answer : Answer} {log : List (Request × Answer)}
    (h : s.Serves r (answer, t)) (rest : Record t log u) : Record s ((r, answer) :: log) u

variable {s u : Assembly}

theorem record (s : Assembly) (requests : List Request) :
    Record s (serveAll s requests).1 (serveAll s requests).2 := by
  induction requests generalizing s with
  | nil => exact .nil s
  | cons r rest ih => exact .cons (s.serves r) (ih _)

theorem map_fst_serveAll (s : Assembly) (requests : List Request) :
    (serveAll s requests).1.map Prod.fst = requests := by
  induction requests generalizing s with
  | nil => rfl
  | cons r rest ih => exact congrArg (r :: ·) (ih _)

/-- A record can be cut at every answer. -/
theorem Record.cut {before after : List (Request × Answer)} {r : Request} {answer : Answer}
    (h : Record s (before ++ (r, answer) :: after) u) :
    ∃ t v, Record s before t ∧ t.Serves r (answer, v) ∧ Record v after u := by
  induction before generalizing s with
  | nil =>
    cases h with
    | cons hserves rest => exact ⟨_, _, .nil s, hserves, rest⟩
  | cons q before ih =>
    cases h with
    | cons hserves rest =>
      obtain ⟨t, v, hbefore, hr, hafter⟩ := ih rest
      exact ⟨t, v, .cons hserves hbefore, hr, hafter⟩

end Assembly

end Stencil
