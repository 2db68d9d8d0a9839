import Stencil.Template.Code

/-!
# Code has the size that was counted for it

The positions of the parts of a template are computed from their sizes before any of their code is
there. The code of a part has exactly as many instructions as its size says, wherever it stands.
-/

namespace Stencil

namespace Expr

mutual

/-- The code of an expression is as long as its size. -/
@[simp] theorem length_code (scope : Scope) (dst free pc : Nat) :
    (e : Expr) → (e.code scope dst free pc).length = e.size
  | null _ | bool _ _ | int _ _ | float _ _ | str _ _ | var _ _ | loopFact _ _ => rfl
  | binary _ left right _ | and left right _ | or left right _ => by
    simp only [code, size, List.length_append, List.length_singleton, length_code _ _ _ _ left,
      length_code _ _ _ _ right]
  | not operand _ | assign _ operand _ | textCall _ operand _ => by
    simp only [code, size, List.length_append, List.length_singleton, length_code _ _ _ _ operand]
  | array items _ | map items _ => by
    simp only [code, size, List.length_append, List.length_cons, List.length_nil,
      length_codeRun _ _ _ _ items]
  | choice test yes no _ => by
    simp only [code, size, List.length_append, List.length_singleton, length_code _ _ _ _ test,
      length_code _ _ _ _ yes, length_code _ _ _ _ no]
  | format template args _ _ => by
    simp only [code, size, List.length_append, List.length_cons, List.length_nil,
      length_code _ _ _ _ template, length_codeRun _ _ _ _ args]
  | call _ args _ _ => by
    simp only [code, size, List.length_append, List.length_cons, List.length_nil,
      length_codeRun _ _ _ _ args]
  | method object _ args _ _ => by
    simp only [code, size, List.length_append, List.length_cons, List.length_nil,
      length_code _ _ _ _ object, length_codeRun _ _ _ _ args]

/-- The code of expressions in a row is as long as their sizes together. -/
@[simp] theorem length_codeRun (scope : Scope) (dst free pc : Nat) :
    (es : List Expr) → (codeRun scope dst free pc es).length = sizes es
  | [] => rfl
  | e :: rest => by
    simp only [codeRun, sizes, List.length_append, length_code _ _ _ _ e,
      length_codeRun _ _ _ _ rest]

end

/-- The code of an expression whose value is not needed is as long as counted for it. -/
@[simp] theorem length_effect (scope : Scope) (free pc : Nat) (e : Expr) :
    (e.effect scope free pc).length = e.effectSize := by
  unfold effect effectSize
  split <;> simp

/-- A call has a register of its own for its answer. -/
theorem registers_pos (e : Expr) (h : e.isCall) : 0 < e.registers := by
  cases e <;> simp only [isCall, Bool.false_eq_true] at h
  all_goals
    simp only [registers]
    omega

end Expr

mutual

/-- The code of a statement is as long as its size. -/
@[simp] theorem Stmt.length_code (scope : Scope) (jumps : Jumps) (free pc : Nat) :
    (s : Stmt) → (s.code scope jumps free pc).length = s.size
  | .block body => Stmt.length_codes scope jumps free pc body
  | .text _ _ | .last _ | .next _ => rfl
  | .output value _ => by simp [Stmt.code, Stmt.size]
  | .eval e => by simp [Stmt.code, Stmt.size]
  | .when _ body _ => by
    simp only [Stmt.code, Stmt.size, List.length_append, List.length_singleton, Expr.length_code,
      Stmt.length_code _ _ _ _ body]
  | .choice _ yes no _ => by
    simp only [Stmt.code, Stmt.size, List.length_append, List.length_singleton, Expr.length_code,
      Stmt.length_code _ _ _ _ yes, Stmt.length_code _ _ _ _ no]
  | .switch subject arms => by
    simp only [Stmt.code, Stmt.size, List.length_append, Expr.length_code,
      Arm.length_codes _ _ _ _ _ _ arms]
  | .foreach _ _ body _ => by
    simp only [Stmt.code, Stmt.size, List.length_append, List.length_cons, List.length_nil,
      Expr.length_code, Stmt.length_code _ _ _ _ body]
  | .loop _ body _ => by
    simp only [Stmt.code, Stmt.size, List.length_append, List.length_singleton, Expr.length_code,
      Stmt.length_code _ _ _ _ body]
  | .inclusion _ _ | .inclusionWith _ _ _ => by simp [Stmt.code, Stmt.size, Nat.add_assoc]
  | .wrapper _ body _ => by
    simp only [Stmt.code, Stmt.size, List.length_append, List.length_singleton, Expr.length_code,
      Stmt.length_code _ _ _ _ body]

/-- The code of statements in a row is as long as their sizes together. -/
@[simp] theorem Stmt.length_codes (scope : Scope) (jumps : Jumps) (free pc : Nat) :
    (body : List Stmt) → (Stmt.codes scope jumps free pc body).length = Stmt.sizes body
  | [] => rfl
  | s :: rest => by
    simp only [Stmt.codes, Stmt.sizes, List.length_append, Stmt.length_code _ _ _ _ s,
      Stmt.length_codes _ _ _ _ rest]

/-- The code of an arm is as long as its size. -/
@[simp] theorem Arm.length_code (scope : Scope) (jumps : Jumps) (subject done free pc : Nat) :
    (a : Arm) → (a.code scope jumps subject done free pc).length = a.size
  | .test _ body _ | .always body _ => by
    simp only [Arm.code, Arm.size, List.length_append, List.length_cons, List.length_nil,
      Expr.length_code, Stmt.length_code _ _ _ _ body]

/-- The code of arms in a row is as long as their sizes together. -/
@[simp] theorem Arm.length_codes (scope : Scope) (jumps : Jumps) (subject done free pc : Nat) :
    (arms : List Arm) →
      (Arm.codes scope jumps subject done free pc arms).length = Arm.sizes arms
  | [] => rfl
  | a :: rest => by
    simp only [Arm.codes, Arm.sizes, List.length_append, Arm.length_code _ _ _ _ _ _ a,
      Arm.length_codes _ _ _ _ _ _ rest]

end

mutual

/-- Every loop along a collection that is open has a register. -/
theorem Stmt.loopDepth_le_registers : (s : Stmt) → s.loopDepth ≤ s.registers
  | .block body => Stmt.loopDepths_le_registersAll body
  | .when _ body _ | .loop _ body _ | .wrapper _ body _ => by
    have hbody := Stmt.loopDepth_le_registers body
    simp only [Stmt.loopDepth, Stmt.registers]
    omega
  | .choice _ yes no _ => by
    have hyes := Stmt.loopDepth_le_registers yes
    have hno := Stmt.loopDepth_le_registers no
    simp only [Stmt.loopDepth, Stmt.registers]
    omega
  | .switch _ arms => by
    have harms := Arm.loopDepths_le_registersAll arms
    simp only [Stmt.loopDepth, Stmt.registers]
    omega
  | .foreach _ _ body _ => by
    have hbody := Stmt.loopDepth_le_registers body
    simp only [Stmt.loopDepth, Stmt.registers]
    omega
  | .text _ _ | .output _ _ | .eval _ | .last _ | .next _ | .inclusion _ _
  | .inclusionWith _ _ _ => Nat.zero_le _

theorem Stmt.loopDepths_le_registersAll : (body : List Stmt) →
    Stmt.loopDepths body ≤ Stmt.registersAll body
  | [] => Nat.le_refl _
  | s :: rest => by
    have hs := Stmt.loopDepth_le_registers s
    have hrest := Stmt.loopDepths_le_registersAll rest
    simp only [Stmt.loopDepths, Stmt.registersAll]
    omega

theorem Arm.loopDepths_le_registersAll : (arms : List Arm) →
    Arm.loopDepths arms ≤ Arm.registersAll arms
  | [] => Nat.le_refl _
  | .test _ body _ :: rest | .always body _ :: rest => by
    have hbody := Stmt.loopDepth_le_registers body
    have hrest := Arm.loopDepths_le_registersAll rest
    simp only [Arm.loopDepths, Arm.registersAll, Arm.loopDepth, Arm.registers]
    omega

end

end Stencil
