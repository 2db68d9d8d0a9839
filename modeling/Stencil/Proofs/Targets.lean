import Stencil.Proofs.Correctness
import Stencil.Proofs.Moves
import Stencil.Proofs.Validity

/-!
# The variables that a template assigns

An instruction that assigns a variable comes from an assignment in the tree. The variables of loops
are in registers, and those of other templates are no business of the program's.

* `Node.targets`: the targets of the assignments in a tree;
* `Draft.Spare`: drafts that leave a variable alone;
* `Expr.ofNode_spares`, `Stmt.ofNode_spares`: the code of a tree leaves all other variables alone;
* `Program.IsCompiledFrom.mem_targets`: the variables that a program assigns are among the targets.
-/

namespace Stencil

/-! ### Targets -/

mutual

/-- The targets of all assignments in a tree. -/
def Node.targets : Node → List String
  | ⟨tag, _, children, _⟩ =>
    (if tag = .assignment then (children.head?.map Node.text).toList else [])
      ++ Node.targetsAll children

/-- The same for trees. -/
def Node.targetsAll : List Node → List String
  | [] => []
  | n :: rest => n.targets ++ Node.targetsAll rest

end

namespace Node

variable {name : String} {tag : Tag} {text? : Option String} {children : List Node} {line : UInt32}

theorem not_mem_targetsAll (h : name ∉ (⟨tag, text?, children, line⟩ : Node).targets) :
    name ∉ targetsAll children := by
  rw [targets, List.mem_append, not_or] at h
  exact h.2

theorem not_mem_targetsAll_cons {n : Node} {ns : List Node} :
    name ∉ targetsAll (n :: ns) ↔ name ∉ n.targets ∧ name ∉ targetsAll ns := by
  rw [targetsAll, List.mem_append, not_or]

theorem target_ne {target : Node}
    (h : name ∉ (⟨.assignment, text?, target :: children, line⟩ : Node).targets) :
    target.text ≠ name := by
  rintro rfl
  simp [targets] at h

end Node

/-! ### Drafts that leave a variable alone -/

/-- Drafts that assign variables of other names only. -/
def Draft.Spare (name : String) (ds : List Draft) : Prop :=
  ∀ d ∈ ds, d.op = .setVar → ∃ other, other ≠ name ∧ d.a = .const (.str other)

namespace Draft

variable {name : String}

@[simp] theorem spare_nil : Spare name [] := List.forall_mem_nil _

@[simp] theorem spare_cons {d : Draft} {ds : List Draft} : Spare name (d :: ds) ↔
    (d.op = .setVar → ∃ other, other ≠ name ∧ d.a = .const (.str other)) ∧ Spare name ds :=
  List.forall_mem_cons

@[simp] theorem spare_append {ds es : List Draft} :
    Spare name (ds ++ es) ↔ Spare name ds ∧ Spare name es := List.forall_mem_append

end Draft

/-- An operation whose first operand is a register assigns no variable. -/
theorem Opcode.ne_setVar {op : Opcode} (h : op.kinds.1 = .register) : op ≠ .setVar := by
  rintro rfl
  cases h

namespace Draft

theorem loadInteger_op_ne_setVar (dst : Nat) (n : Int64) (line : UInt32) :
    (loadInteger dst n line).op ≠ .setVar := by
  apply Opcode.ne_setVar
  unfold loadInteger
  split <;> rfl

theorem loadVariable_op_ne_setVar (scope : Scope) (dst : Nat) (name : String) (line : UInt32) :
    (loadVariable scope dst name line).op ≠ .setVar := by
  apply Opcode.ne_setVar
  unfold loadVariable
  split <;> rfl

end Draft

/-! ### The code of trees -/

/-- The code of an expression leaves a variable alone, wherever it stands. -/
def Expr.Spares (name : String) (e : Expr) : Prop :=
  ∀ scope dst free pc, Draft.Spare name (e.code scope dst free pc)

/-- The same for expressions in a row. -/
def Expr.AllSpare (name : String) (es : List Expr) : Prop :=
  ∀ scope dst free pc, Draft.Spare name (Expr.codeRun scope dst free pc es)

/-- The code of a statement leaves a variable alone. -/
def Stmt.Spares (name : String) (s : Stmt) : Prop :=
  ∀ scope jumps free pc, Draft.Spare name (s.code scope jumps free pc)

/-- The same for statements in a row. -/
def Stmt.AllSpare (name : String) (body : List Stmt) : Prop :=
  ∀ scope jumps free pc, Draft.Spare name (Stmt.codes scope jumps free pc body)

/-- The same for the arms of a switch. -/
def Arm.AllSpare (name : String) (arms : List Arm) : Prop :=
  ∀ scope jumps subject done free pc,
    Draft.Spare name (Arm.codes scope jumps subject done free pc arms)

section Code

variable {name : String}

mutual

/-- A node whose value is needed. -/
theorem Expr.ofNode_spares : (n : Node) → name ∉ n.targets → {e : Expr} → Expr.ofNode n = .ok e →
    e.Spares name
  | ⟨tag, text?, children, line⟩, htargets, e, h => by
    have hchildren := Node.not_mem_targetsAll htargets
    intro scope dst free pc
    match hop : BinaryOp.ofTag? tag with
    | some op =>
      simp only [Expr.ofNode_binary hop, bind_eq_ok, pure_eq_ok] at h
      obtain ⟨⟨left, right⟩, h, rfl⟩ := h
      obtain ⟨hleft, hright⟩ := Expr.ofOperands_spare children hchildren h
      have hop := Opcode.ne_setVar (congrArg Prod.fst op.kinds_opcode)
      simp [Expr.code, hleft _ _ _ _, hright _ _ _ _, Draft.onRegisters, hop]
    | none =>
    cases tag
    case add | subtract | multiply | divide | modulo | concat | equals | notEquals | gt | ge | lt
        | le | range | member => cases hop
    case block | literalText | output | switch | foreach | loop | last | next | inclusion
        | wrapper | arm => cases h
    case string | yes | no | nothing | ident | dollarVar =>
      cases h
      simp [Expr.code, Draft.onRegister, Draft.loadConst, Draft.loadVariable_op_ne_setVar]
    case loopCount | loopIndex | loopHasNext =>
      cases h
      have hop (fact : LoopFact) := Opcode.ne_setVar (congrArg Prod.fst fact.kinds_opcode)
      simp [Expr.code, Draft.onRegister, hop]
    case integer =>
      simp only [Expr.ofNode, integerLiteral] at h
      split at h <;> cases h
      simp [Expr.code, Draft.loadInteger_op_ne_setVar]
    case double =>
      simp only [Expr.ofNode, doubleLiteral] at h
      split at h <;> cases h
      simp [Expr.code, Draft.loadConst]
    case andAnd | orOr =>
      simp only [Expr.ofNode, bind_eq_ok, pure_eq_ok] at h
      obtain ⟨⟨left, right⟩, h, rfl⟩ := h
      obtain ⟨hleft, hright⟩ := Expr.ofOperands_spare children hchildren h
      simp [Expr.code, hleft _ _ _ _, hright _ _ _ _, Draft.branchTo]
    case negation =>
      match children, hchildren, h with
      | operand :: _, hchildren, h =>
        obtain ⟨hoperand, -⟩ := Node.not_mem_targetsAll_cons.1 hchildren
        simp only [Expr.ofNode, bind_eq_ok, pure_eq_ok] at h
        obtain ⟨x, hx, rfl⟩ := h
        simp [Expr.code, Expr.ofNode_spares operand hoperand hx _ _ _ _, Draft.onRegister]
    case array =>
      simp only [Expr.ofNode, bind_eq_ok, pure_eq_ok] at h
      obtain ⟨items, hitems, rfl⟩ := h
      have hspare := Expr.ofNodes_spare children hchildren hitems
      simp [Expr.code, hspare _ _ _ _, Draft.onRun, Draft.onRegisters]
    case map =>
      simp only [Expr.ofNode] at h
      split at h
      · simp only [bind_eq_ok, pure_eq_ok] at h
        obtain ⟨pairs, hpairs, rfl⟩ := h
        have hspare := Expr.ofPairs_spare children hchildren hpairs
        simp [Expr.code, hspare _ _ _ _, Draft.onRun, Draft.onRegisters]
      · cases h
    case choice =>
      match children, hchildren, h with
      | test :: branches, hchildren, h =>
        obtain ⟨htest, hbranches⟩ := Node.not_mem_targetsAll_cons.1 hchildren
        simp only [Expr.ofNode, bind_eq_ok] at h
        obtain ⟨t, ht, h⟩ := h
        have htest := Expr.ofNode_spares test htest ht
        match branches, hbranches, h with
        | [yes], hbranches, h =>
          obtain ⟨hyes, -⟩ := Node.not_mem_targetsAll_cons.1 hbranches
          simp only [bind_eq_ok, pure_eq_ok] at h
          obtain ⟨y, hy, rfl⟩ := h
          have hyes := Expr.ofNode_spares yes hyes hy
          simp [Expr.code, htest _ _ _ _, hyes _ _ _ _, Draft.branchTo, Draft.jumpTo,
            Draft.onRegister]
        | yes :: no :: _, hbranches, h =>
          simp only [Node.not_mem_targetsAll_cons] at hbranches
          simp only [bind_eq_ok, pure_eq_ok] at h
          obtain ⟨y, hy, n, hn, rfl⟩ := h
          have hyes := Expr.ofNode_spares yes hbranches.1 hy
          have hno := Expr.ofNode_spares no hbranches.2.1 hn
          simp [Expr.code, htest _ _ _ _, hyes _ _ _ _, hno _ _ _ _, Draft.branchTo, Draft.jumpTo]
    case assignment =>
      match children, htargets, hchildren, h with
      | target :: value :: _, htargets, hchildren, h =>
        simp only [Node.not_mem_targetsAll_cons] at hchildren
        simp only [Expr.ofNode, bind_eq_ok, pure_eq_ok] at h
        obtain ⟨v, hv, rfl⟩ := h
        have hvalue := Expr.ofNode_spares value hchildren.2.1 hv
        simp [Expr.code, hvalue _ _ _ _, Node.target_ne htargets]
    case call =>
      match children, hchildren, h with
      | ⟨.ident, name?, parts, nameLine⟩ :: args, hchildren, h =>
        obtain ⟨-, hargs⟩ := Node.not_mem_targetsAll_cons.1 hchildren
        unfold Expr.ofNode at h
        dsimp only at h
        split at h
        · next op _ =>
          match args, hargs, h with
          | [arg], hargs, h =>
            obtain ⟨harg, -⟩ := Node.not_mem_targetsAll_cons.1 hargs
            simp only [bind_eq_ok, pure_eq_ok] at h
            obtain ⟨x, hx, rfl⟩ := h
            have harg := Expr.ofNode_spares arg harg hx
            have hop := Opcode.ne_setVar (congrArg Prod.fst op.kinds_opcode)
            simp [Expr.code, harg _ _ _ _, Draft.onRegister, hop]
        · split at h
          · match args, hargs, h with
            | template :: args, hargs, h =>
              obtain ⟨htemplate, hargs⟩ := Node.not_mem_targetsAll_cons.1 hargs
              simp only [bind_eq_ok, pure_eq_ok] at h
              obtain ⟨t, ht, xs, hxs, rfl⟩ := h
              have htemplate := Expr.ofNode_spares template htemplate ht
              have hargs := Expr.ofNodes_spare args hargs hxs
              simp [Expr.code, htemplate _ _ _ _, hargs _ _ _ _, Draft.onRun, Draft.onRegisters]
          · simp only [bind_eq_ok, pure_eq_ok] at h
            obtain ⟨xs, hxs, rfl⟩ := h
            have hargs := Expr.ofNodes_spare args hargs hxs
            simp [Expr.code, hargs _ _ _ _, Draft.loadConst, Draft.onRun, Draft.onRegisters]
      | ⟨.member, _, object :: key :: _, _⟩ :: args, hchildren, h =>
        obtain ⟨hmember, hargs⟩ := Node.not_mem_targetsAll_cons.1 hchildren
        obtain ⟨hobject, -⟩ := Node.not_mem_targetsAll_cons.1 (Node.not_mem_targetsAll hmember)
        simp only [Expr.ofNode] at h
        split at h
        · simp only [bind_eq_ok, pure_eq_ok] at h
          obtain ⟨o, ho, xs, hxs, rfl⟩ := h
          have hobject := Expr.ofNode_spares object hobject ho
          have hargs := Expr.ofNodes_spare args hargs hxs
          simp [Expr.code, hobject _ _ _ _, hargs _ _ _ _, Draft.loadConst, Draft.onRun,
            Draft.onRegisters]
        · cases h

/-- The operands of a node. -/
theorem Expr.ofOperands_spare {tag : Tag} {line : UInt32} : (ns : List Node) →
    name ∉ Node.targetsAll ns → {left right : Expr} →
      Expr.ofOperands tag line ns = .ok (left, right) → left.Spares name ∧ right.Spares name
  | [], _, _, _, h => by cases h
  | [l], _, _, _, h => by
    simp only [Expr.ofOperands, bind_eq_ok] at h
    obtain ⟨_, _, h⟩ := h
    cases h
  | l :: r :: rest, htargets, _, _, h => by
    simp only [Node.not_mem_targetsAll_cons] at htargets
    simp only [Expr.ofOperands, bind_eq_ok, pure_eq_ok, Prod.mk.injEq] at h
    obtain ⟨_, hl, _, hr, rfl, rfl⟩ := h
    exact ⟨Expr.ofNode_spares l htargets.1 hl, Expr.ofNode_spares r htargets.2.1 hr⟩

/-- Nodes whose values are needed. -/
theorem Expr.ofNodes_spare : (ns : List Node) → name ∉ Node.targetsAll ns → {es : List Expr} →
    Expr.ofNodes ns = .ok es → Expr.AllSpare name es
  | [], _, _, h => by
    cases h
    exact fun _ _ _ _ => Draft.spare_nil
  | n :: rest, htargets, _, h => by
    obtain ⟨hn, hrest⟩ := Node.not_mem_targetsAll_cons.1 htargets
    simp only [Expr.ofNodes, bind_eq_ok, pure_eq_ok] at h
    obtain ⟨e, he, es, hes, rfl⟩ := h
    intro scope dst free pc
    exact Draft.spare_append.2 ⟨Expr.ofNode_spares n hn he _ _ _ _,
      Expr.ofNodes_spare rest hrest hes _ _ _ _⟩

/-- Keys and values that take turns. -/
theorem Expr.ofPairs_spare : (ns : List Node) → name ∉ Node.targetsAll ns → {es : List Expr} →
    Expr.ofPairs ns = .ok es → Expr.AllSpare name es
  | [], _, _, h | [_], _, _, h => by
    cases h
    exact fun _ _ _ _ => Draft.spare_nil
  | key :: value :: rest, htargets, es, h => by
    simp only [Node.not_mem_targetsAll_cons] at htargets
    obtain ⟨hkey, hvalue, hrest⟩ := htargets
    obtain ⟨k, v, es', hk, hv, hes, rfl⟩ : ∃ k v es', k.Spares name ∧ Expr.ofNode value = .ok v ∧
        Expr.ofPairs rest = .ok es' ∧ k :: v :: es' = es := by
      by_cases hident : key.tag = .ident
      · simp only [Expr.ofPairs, hident, if_true, bind_eq_ok, pure_eq_ok] at h
        obtain ⟨k, rfl, v, hv, es', hes, rfl⟩ := h
        have hk : (Expr.str key.text key.line).Spares name := by
          simp [Expr.Spares, Expr.code, Draft.loadConst]
        exact ⟨_, v, es', hk, hv, hes, rfl⟩
      · simp only [Expr.ofPairs, hident, if_false, bind_eq_ok, pure_eq_ok] at h
        obtain ⟨k, hk, v, hv, es', hes, rfl⟩ := h
        exact ⟨k, v, es', Expr.ofNode_spares key hkey hk, hv, hes, rfl⟩
    intro scope dst free pc
    exact Draft.spare_append.2 ⟨hk _ _ _ _, Draft.spare_append.2
      ⟨Expr.ofNode_spares value hvalue hv _ _ _ _, Expr.ofPairs_spare rest hrest hes _ _ _ _⟩⟩

end

theorem Expr.Spares.effect {e : Expr} (h : e.Spares name) (scope : Scope) (free pc : Nat) :
    Draft.Spare name (e.effect scope free pc) := by
  unfold Expr.effect
  split
  · exact fun d hd => h _ _ _ _ d (List.dropLast_subset _ hd)
  · exact h _ _ _ _

mutual

/-- A node whose value is not needed. -/
theorem Stmt.ofNode_spares : {inLoop : Bool} → (n : Node) → name ∉ n.targets → {s : Stmt} →
    Stmt.ofNode inLoop n = .ok s → s.Spares name
  | inLoop, ⟨tag, text?, children, line⟩, htargets, s, h => by
    have hchildren := Node.not_mem_targetsAll htargets
    intro scope jumps free pc
    cases tag
    case integer | double | string | yes | no | nothing | ident | dollarVar | array | map
        | loopCount | loopIndex | loopHasNext | arm => cases h
    case add | subtract | multiply | divide | modulo | concat | equals | notEquals | gt | ge | lt
        | le | range | member | andAnd | orOr | negation | call | assignment =>
      simp only [Stmt.ofNode, bind_eq_ok, pure_eq_ok] at h
      obtain ⟨e, he, rfl⟩ := h
      exact (Expr.ofNode_spares _ htargets he).effect _ _ _
    case block =>
      simp only [Stmt.ofNode, bind_eq_ok, pure_eq_ok] at h
      obtain ⟨body, hbody, rfl⟩ := h
      simpa [Stmt.code] using Stmt.ofNodes_spare children hchildren hbody scope jumps free pc
    case literalText =>
      cases h
      simp [Stmt.code]
    case output =>
      match children, hchildren, h with
      | value :: _, hchildren, h =>
        obtain ⟨hvalue, -⟩ := Node.not_mem_targetsAll_cons.1 hchildren
        simp only [Stmt.ofNode, bind_eq_ok, pure_eq_ok] at h
        obtain ⟨e, he, rfl⟩ := h
        have hvalue := Expr.ofNode_spares value hvalue he
        split
        · exact hvalue.effect _ _ _
        · simp [Stmt.code, hvalue _ _ _ _, Draft.onRegister]
    case choice =>
      match children, hchildren, h with
      | test :: branches, hchildren, h =>
        obtain ⟨htest, hbranches⟩ := Node.not_mem_targetsAll_cons.1 hchildren
        simp only [Stmt.ofNode, bind_eq_ok] at h
        obtain ⟨t, ht, h⟩ := h
        have htest := Expr.ofNode_spares test htest ht
        match branches, hbranches, h with
        | [body], hbranches, h =>
          obtain ⟨hbody, -⟩ := Node.not_mem_targetsAll_cons.1 hbranches
          simp only [bind_eq_ok, pure_eq_ok] at h
          obtain ⟨b, hb, rfl⟩ := h
          have hbody := Stmt.ofNode_spares body hbody hb
          simp [Stmt.code, htest _ _ _ _, hbody _ _ _ _, Draft.branchTo]
        | yes :: no :: _, hbranches, h =>
          simp only [Node.not_mem_targetsAll_cons] at hbranches
          simp only [bind_eq_ok, pure_eq_ok] at h
          obtain ⟨y, hy, n, hn, rfl⟩ := h
          have hyes := Stmt.ofNode_spares yes hbranches.1 hy
          have hno := Stmt.ofNode_spares no hbranches.2.1 hn
          simp [Stmt.code, htest _ _ _ _, hyes _ _ _ _, hno _ _ _ _, Draft.branchTo, Draft.jumpTo]
    case switch =>
      match children, hchildren, h with
      | subject :: arms, hchildren, h =>
        obtain ⟨hsubject, harms⟩ := Node.not_mem_targetsAll_cons.1 hchildren
        simp only [Stmt.ofNode, bind_eq_ok, pure_eq_ok] at h
        obtain ⟨x, hx, as, has, rfl⟩ := h
        have hsubject := Expr.ofNode_spares subject hsubject hx
        have harms := Arm.ofNodes_spare arms harms has
        simp [Stmt.code, hsubject _ _ _ _, harms _ _ _ _ _ _]
    case foreach =>
      match children, hchildren, h with
      | var :: source :: rest, hchildren, h =>
        simp only [Node.not_mem_targetsAll_cons] at hchildren
        simp only [Stmt.ofNode, bind_eq_ok] at h
        obtain ⟨x, hx, h⟩ := h
        have hsource := Expr.ofNode_spares source hchildren.2.1 hx
        match rest, hchildren, h with
        | body :: _, hchildren, h =>
          simp only [Node.not_mem_targetsAll_cons] at hchildren
          simp only [bind_eq_ok, pure_eq_ok] at h
          obtain ⟨b, hb, rfl⟩ := h
          have hbody := Stmt.ofNode_spares body hchildren.2.2.1 hb
          simp [Stmt.code, hsource _ _ _ _, hbody _ _ _ _, Draft.branchTo]
    case loop =>
      match children, hchildren, h with
      | test :: rest, hchildren, h =>
        obtain ⟨htest, hrest⟩ := Node.not_mem_targetsAll_cons.1 hchildren
        simp only [Stmt.ofNode, bind_eq_ok] at h
        obtain ⟨x, hx, h⟩ := h
        have htest := Expr.ofNode_spares test htest hx
        match rest, hrest, h with
        | body :: _, hrest, h =>
          obtain ⟨hbody, -⟩ := Node.not_mem_targetsAll_cons.1 hrest
          simp only [bind_eq_ok, pure_eq_ok] at h
          obtain ⟨b, hb, rfl⟩ := h
          have hbody := Stmt.ofNode_spares body hbody hb
          simp [Stmt.code, htest _ _ _ _, hbody _ _ _ _, Draft.branchTo, Draft.jumpTo]
    case last | next =>
      simp only [Stmt.ofNode] at h
      split at h <;> cases h
      simp [Stmt.code, Draft.jumpTo]
    case inclusion =>
      match children, hchildren, h with
      | path :: bindings, hchildren, h =>
        obtain ⟨hpath, hbindings⟩ := Node.not_mem_targetsAll_cons.1 hchildren
        simp only [Stmt.ofNode, bind_eq_ok] at h
        obtain ⟨x, hx, h⟩ := h
        have hpath := Expr.ofNode_spares path hpath hx
        repeat' split at h
        · cases h
          simp [Stmt.code, hpath _ _ _ _, Draft.onRegister]
        · simp only [bind_eq_ok, pure_eq_ok] at h
          obtain ⟨xs, hxs, rfl⟩ := h
          have hbindings := Expr.ofPairs_spare bindings hbindings hxs
          simp [Stmt.code, hpath _ _ _ _, hbindings _ _ _ _, Draft.onRun, Draft.onRegisters,
            Draft.onRegister]
        · cases h
    case wrapper =>
      match children, hchildren, h with
      | path :: body :: _, hchildren, h =>
        simp only [Node.not_mem_targetsAll_cons] at hchildren
        simp only [Stmt.ofNode, bind_eq_ok, pure_eq_ok] at h
        obtain ⟨b, hb, x, hx, rfl⟩ := h
        have hpath := Expr.ofNode_spares path hchildren.1 hx
        have hbody := Stmt.ofNode_spares body hchildren.2.1 hb
        simp [Stmt.code, hpath _ _ _ _, hbody _ _ _ _, Draft.onRegister, Draft.onRegisters]

/-- Nodes in a row. -/
theorem Stmt.ofNodes_spare : {inLoop : Bool} → (ns : List Node) → name ∉ Node.targetsAll ns →
    {body : List Stmt} → Stmt.ofNodes inLoop ns = .ok body → Stmt.AllSpare name body
  | _, [], _, _, h => by
    cases h
    exact fun _ _ _ _ => Draft.spare_nil
  | _, n :: rest, htargets, _, h => by
    obtain ⟨hn, hrest⟩ := Node.not_mem_targetsAll_cons.1 htargets
    simp only [Stmt.ofNodes, bind_eq_ok, pure_eq_ok] at h
    obtain ⟨s, hs, ss, hss, rfl⟩ := h
    intro scope jumps free pc
    exact Draft.spare_append.2 ⟨Stmt.ofNode_spares n hn hs _ _ _ _,
      Stmt.ofNodes_spare rest hrest hss _ _ _ _⟩

/-- The arms of a switch. -/
theorem Arm.ofNodes_spare : {inLoop : Bool} → (ns : List Node) → name ∉ Node.targetsAll ns →
    {arms : List Arm} → Arm.ofNodes inLoop ns = .ok arms → Arm.AllSpare name arms
  | _, [], _, _, h => by
    cases h
    exact fun _ _ _ _ _ _ => Draft.spare_nil
  | _, ⟨tag, text?, parts, line⟩ :: rest, htargets, _, h => by
    obtain ⟨harm, hrest⟩ := Node.not_mem_targetsAll_cons.1 htargets
    have hparts := Node.not_mem_targetsAll harm
    by_cases htag : tag = .arm
    · match parts, hparts, h with
      | [value, body], hparts, h =>
        simp only [Node.not_mem_targetsAll_cons] at hparts
        simp only [Arm.ofNodes, if_pos htag, bind_eq_ok, pure_eq_ok] at h
        obtain ⟨x, hx, b, hb, _, rfl, as, has, rfl⟩ := h
        have hvalue := Expr.ofNode_spares value hparts.1 hx
        have hbody := Stmt.ofNode_spares body hparts.2.1 hb
        have hrest := Arm.ofNodes_spare rest hrest has
        intro scope jumps subject done free pc
        simp [Arm.codes, Arm.code, hvalue _ _ _ _, hbody _ _ _ _, hrest _ _ _ _ _ _,
          Draft.onRegisters, Draft.branchTo, Draft.jumpTo]
      | [body], hparts, h =>
        obtain ⟨hbody, -⟩ := Node.not_mem_targetsAll_cons.1 hparts
        simp only [Arm.ofNodes, if_pos htag, bind_eq_ok, pure_eq_ok] at h
        obtain ⟨b, hb, _, rfl, as, has, rfl⟩ := h
        have hbody := Stmt.ofNode_spares body hbody hb
        have hrest := Arm.ofNodes_spare rest hrest has
        intro scope jumps subject done free pc
        simp [Arm.codes, Arm.code, hbody _ _ _ _, hrest _ _ _ _ _ _, Draft.onRegister,
          Draft.branchTo, Draft.jumpTo]
      | [], _, h | _ :: _ :: _ :: _, _, h =>
        simp only [Arm.ofNodes, if_pos htag, unsupported, bind_eq_ok] at h
        obtain ⟨_, h, _⟩ := h
        cases h
    · rw [Arm.ofNodes, if_neg htag] at h
      cases h

end

end Code

/-! ### Programs -/

/-- The variables that a program assigns are among the targets of the tree that it is compiled
from. -/
theorem Program.IsCompiledFrom.mem_targets {p : Program} {t : Template} (h : p.IsCompiledFrom t)
    {name : String} (hname : p.Assigns name) : name ∈ t.tree.targets := by
  by_contra htargets
  obtain ⟨s, hs, hprogram⟩ := h.exists_stmt
  obtain ⟨i, hmem, hop, hpool⟩ := hname
  obtain ⟨n, hn⟩ := Array.mem_iff_getElem?.1 hmem
  have hlt : n < s.drafts.length := by
    rw [← hprogram.size]
    exact (Array.getElem?_eq_some_iff.1 hn).1
  have hspare : Draft.Spare name s.drafts := by
    simp [Stmt.drafts, Stmt.ofNode_spares t.tree htargets hs _ _ _ _]
  obtain ⟨x, y, hi, hx, -⟩ := hprogram.code.getElem? (List.getElem?_eq_getElem hlt)
  rw [Nat.zero_add, hn] at hi
  cases hi
  obtain ⟨other, hne, ha⟩ := hspare _ (List.getElem_mem hlt) hop
  rw [ha] at hx
  cases hpool.symm.trans hx
  exact hne rfl

end Stencil
