import Stencil.Proofs.Grammar
import Stencil.Proofs.Room

/-!
# The compiler accepts its grammar

Every well-formed tree is read, and its code needs at most four instructions and registers for each
of its nodes. So trees that are not huge are compiled exactly if they are well-formed.

* `Node.count`: the number of nodes of a tree;
* `Node.IsRead`: a node is read where it stands and takes little code;
* `Node.WellFormed.isRead`: well-formed nodes are;
* `Program.compile_isOk_iff`: the trees that are compiled.
-/

namespace Stencil

mutual

/-- The number of nodes of a tree. -/
def Node.count : Node → Nat
  | ⟨_, _, children, _⟩ => Node.counts children + 1

/-- The number of nodes of trees. -/
def Node.counts : List Node → Nat
  | [] => 0
  | n :: rest => n.count + Node.counts rest

end

theorem Node.count_pos (n : Node) : 0 < n.count := by
  obtain ⟨tag, text?, children, line⟩ := n
  exact Nat.succ_pos _

@[simp] theorem Node.length_inTurn (pairs : List (Node × Node)) :
    (Node.inTurn pairs).length = 2 * pairs.length := by
  induction pairs with
  | nil => rfl
  | cons p pairs ih =>
    simp only [inTurn_cons, List.length_cons, ih]
    omega

/-- A value that is not needed takes at most one register more. -/
theorem Expr.effect_le (e : Expr) :
    e.effectSize + e.effectRegisters ≤ e.size + e.registers + 1 := by
  unfold effectSize effectRegisters
  split <;> omega

/-! ### Reading parts -/

namespace Node

/-- A node is read where it stands, and takes at most four instructions and registers for each node
below it; of a value, the register that it ends up in is one of them. -/
def IsRead (n : Node) : Position → Prop
  | .value => ∃ e, Expr.ofNode n = .ok e ∧ e.size + e.registers < 4 * n.count
  | .statement inLoop =>
    ∃ s, Stmt.ofNode inLoop n = .ok s ∧ s.size + s.registers ≤ 4 * n.count

theorem ofNode_action {tag : Tag} (kind : tag ∈ Tag.actions) (inLoop : Bool)
    (text? : Option String) (children : List Node) (line : UInt32) :
    Stmt.ofNode inLoop ⟨tag, text?, children, line⟩ =
      (do return .eval (← Expr.ofNode ⟨tag, text?, children, line⟩)) := by
  revert kind
  cases tag <;> first | exact fun _ => rfl | exact fun kind => absurd kind (by decide)

/-- A value that may stand as a statement is read anywhere. -/
theorem IsRead.anywhere {tag : Tag} {text? : Option String} {children : List Node} {line : UInt32}
    (h : IsRead ⟨tag, text?, children, line⟩ .value) (kind : tag ∈ Tag.actions) (pos : Position) :
    IsRead ⟨tag, text?, children, line⟩ pos := by
  cases pos with
  | value => exact h
  | statement inLoop =>
    obtain ⟨e, he, hsize⟩ := h
    have heffect := e.effect_le
    refine ⟨.eval e, by rw [ofNode_action kind, he]; rfl, ?_⟩
    simp only [Stmt.size, Stmt.registers]
    omega

theorem exists_ofNodes {ns : List Node} (h : ∀ n ∈ ns, n.IsRead .value) :
    ∃ es, Expr.ofNodes ns = .ok es ∧
      Expr.sizes es + Expr.registersAll es + es.length ≤ 4 * counts ns := by
  induction ns with
  | nil => exact ⟨[], rfl, Nat.le_refl 0⟩
  | cons n ns ih =>
    rw [List.forall_mem_cons] at h
    obtain ⟨e, he, hsize⟩ := h.1
    obtain ⟨es, hes, hsizes⟩ := ih h.2
    refine ⟨e :: es, by simp [Expr.ofNodes, bind_eq_ok, he, hes], ?_⟩
    simp only [Expr.sizes, Expr.registersAll, counts, List.length_cons]
    omega

theorem exists_ofKey {key : Node} (h : key.tag ≠ .ident → key.IsRead .value) :
    ∃ k, Expr.ofKey key = .ok k ∧ k.size + k.registers < 4 * key.count := by
  unfold Expr.ofKey
  split
  · have hpos := key.count_pos
    exact ⟨_, rfl, by simp only [Expr.size, Expr.registers]; omega⟩
  · next hkey => exact h hkey

theorem exists_ofPairs {pairs : List (Node × Node)}
    (hkeys : ∀ p ∈ pairs, p.1.tag ≠ .ident → p.1.IsRead .value)
    (hvalues : ∀ p ∈ pairs, p.2.IsRead .value) :
    ∃ es, Expr.ofPairs (inTurn pairs) = .ok es ∧
      Expr.sizes es + Expr.registersAll es + es.length ≤ 4 * counts (inTurn pairs) := by
  induction pairs with
  | nil => exact ⟨[], rfl, Nat.le_refl 0⟩
  | cons p pairs ih =>
    rw [List.forall_mem_cons] at hkeys hvalues
    obtain ⟨k, hk, hkey⟩ := exists_ofKey hkeys.1
    obtain ⟨e, he, hsize⟩ := hvalues.1
    obtain ⟨es, hes, hsizes⟩ := ih hkeys.2 hvalues.2
    refine ⟨k :: e :: es, by simp [Expr.ofPairs_cons, bind_eq_ok, hk, he, hes], ?_⟩
    simp only [Expr.sizes, Expr.registersAll, inTurn_cons, counts, List.length_cons]
    omega

theorem exists_statements {inLoop : Bool} {ns : List Node}
    (h : ∀ n ∈ ns, n.IsRead (.statement inLoop)) :
    ∃ body, Stmt.ofNodes inLoop ns = .ok body ∧
      Stmt.sizes body + Stmt.registersAll body ≤ 4 * counts ns := by
  induction ns with
  | nil => exact ⟨[], rfl, Nat.le_refl 0⟩
  | cons n ns ih =>
    rw [List.forall_mem_cons] at h
    obtain ⟨s, hs, hsize⟩ := h.1
    obtain ⟨ss, hss, hsizes⟩ := ih h.2
    refine ⟨s :: ss, by simp [Stmt.ofNodes, bind_eq_ok, hs, hss], ?_⟩
    simp only [Stmt.sizes, Stmt.registersAll, counts]
    omega

theorem exists_arms {inLoop : Bool} {ns : List Node} (hshape : ∀ arm ∈ ns, arm.IsArm)
    (hvalues : ∀ arm ∈ ns, ∀ n ∈ arm.children.dropLast, n.IsRead .value)
    (hbodies : ∀ arm ∈ ns, ∀ n ∈ arm.children.getLast?, n.IsRead (.statement inLoop)) :
    ∃ arms, Arm.ofNodes inLoop ns = .ok arms ∧
      Arm.sizes arms + Arm.registersAll arms ≤ 4 * counts ns := by
  induction ns with
  | nil => exact ⟨[], rfl, Nat.le_refl 0⟩
  | cons n ns ih =>
    rw [List.forall_mem_cons] at hshape hvalues hbodies
    obtain ⟨as, has, hsizes⟩ := ih hshape.2 hvalues.2 hbodies.2
    obtain ⟨tag, text?, parts, line⟩ := n
    obtain ⟨rfl, hlength⟩ := hshape.1
    match parts, hlength with
    | [body], _ =>
      obtain ⟨b, hb, hbody⟩ := hbodies.1 body rfl
      refine ⟨.always b line :: as, by simp [Arm.ofNodes, bind_eq_ok, hb, has], ?_⟩
      simp only [Arm.sizes, Arm.registersAll, Arm.size, Arm.registers, counts, count]
      omega
    | [value, body], _ =>
      obtain ⟨x, hx, hvalue⟩ := hvalues.1 value (List.mem_singleton_self _)
      obtain ⟨b, hb, hbody⟩ := hbodies.1 body rfl
      refine ⟨.test x b line :: as, by simp [Arm.ofNodes, bind_eq_ok, hx, hb, has], ?_⟩
      simp only [Arm.sizes, Arm.registersAll, Arm.size, Arm.registers, counts, count]
      omega

/-! ### Well-formed nodes are read -/

theorem isRead_operator {tag : Tag} (kind : tag ∈ Tag.operators) {l r : Node}
    (hl : l.IsRead .value) (hr : r.IsRead .value) (text? : Option String) (rest : List Node)
    (line : UInt32) : IsRead ⟨tag, text?, l :: r :: rest, line⟩ .value := by
  obtain ⟨x, hx, hsize⟩ := hl
  obtain ⟨y, hy, hsize'⟩ := hr
  have hlr : Expr.ofOperands tag line (l :: r :: rest) = .ok (x, y) := by
    simp [Expr.ofOperands, bind_eq_ok, hx, hy]
  rcases Tag.operator_cases kind with ⟨op, hop⟩ | rfl | rfl
  · refine ⟨.binary op x y line, by simp [Expr.ofNode_binary hop, hlr], ?_⟩
    simp only [Expr.size, Expr.registers, count, counts]
    omega
  · refine ⟨.and x y line, by simp [Expr.ofNode, hlr], ?_⟩
    simp only [Expr.size, Expr.registers, count, counts]
    omega
  · refine ⟨.or x y line, by simp [Expr.ofNode, hlr], ?_⟩
    simp only [Expr.size, Expr.registers, count, counts]
    omega

theorem isRead_atom {tag : Tag} (kind : tag ∈ Tag.atoms) (text? : Option String)
    (children : List Node) (line : UInt32) : IsRead ⟨tag, text?, children, line⟩ .value := by
  obtain ⟨e, he, hsize⟩ : ∃ e, Expr.ofNode ⟨tag, text?, children, line⟩ = .ok e ∧
      e.size + e.registers = 1 := by
    revert kind
    cases tag <;> first
      | exact fun _ => ⟨_, rfl, rfl⟩
      | exact fun kind => absurd kind (by decide)
  exact ⟨e, he, by simp only [count]; omega⟩

/-- A call of a function is read if the number of its arguments is right. -/
theorem isRead_call {name? : Option String} {args : List Node}
    (takes : Takes (name?.getD "") args.length) (hargs : ∀ n ∈ args, n.IsRead .value)
    (text? : Option String) (parts : List Node) (nameLine line : UInt32) :
    IsRead ⟨.call, text?, ⟨.ident, name?, parts, nameLine⟩ :: args, line⟩ .value := by
  match hop : TextOp.ofName? (name?.getD "") with
  | some op =>
    have hlength : args.length = 1 := takes.1 (TextOp.ofName?_isSome.1 (by rw [hop]; rfl))
    obtain ⟨arg, rfl⟩ := List.length_eq_one_iff.1 hlength
    obtain ⟨x, hx, hsize⟩ := hargs arg (List.mem_singleton_self _)
    refine ⟨.textCall op x nameLine, by simp [Expr.ofNode, hop, hx], ?_⟩
    simp only [Expr.size, Expr.registers, count, counts]
    omega
  | none =>
    by_cases hname : name?.getD "" = "sprintf"
    · match args, takes.2 hname, hargs with
      | template :: args, _, hargs =>
        rw [List.forall_mem_cons] at hargs
        obtain ⟨x, hx, hsize⟩ := hargs.1
        obtain ⟨xs, hxs, hsizes⟩ := exists_ofNodes hargs.2
        rw [hname] at hop
        refine ⟨.format x xs nameLine line,
          by simp [Expr.ofNode, hname, hop, bind_eq_ok, hx, hxs], ?_⟩
        simp only [Expr.size, Expr.registers, count, counts]
        omega
    · obtain ⟨xs, hxs, hsizes⟩ := exists_ofNodes hargs
      refine ⟨.call (name?.getD "") xs nameLine line,
        by unfold Expr.ofNode; simp [hop, hname, hxs], ?_⟩
      simp only [Expr.size, Expr.registers, count, counts]
      omega

theorem isRead_method {object key : Node} {args : List Node}
    (name : key.tag = .string ∨ key.tag = .ident) (hobject : object.IsRead .value)
    (hargs : ∀ n ∈ args, n.IsRead .value) (text? memberText? : Option String) (rest : List Node)
    (memberLine line : UInt32) :
    IsRead ⟨.call, text?, ⟨.member, memberText?, object :: key :: rest, memberLine⟩ :: args, line⟩
      .value := by
  obtain ⟨x, hx, hsize⟩ := hobject
  obtain ⟨xs, hxs, hsizes⟩ := exists_ofNodes hargs
  refine ⟨.method x key.text xs key.line line,
    by simp [Expr.ofNode, if_pos name, bind_eq_ok, hx, hxs], ?_⟩
  simp only [Expr.size, Expr.registers, count, counts]
  omega

/-- A choice between two branches is read where its branches are. -/
theorem isRead_choiceElse {test yes no : Node} {pos : Position} (htest : test.IsRead .value)
    (hyes : yes.IsRead pos) (hno : no.IsRead pos) (text? : Option String) (rest : List Node)
    (line : UInt32) : IsRead ⟨.choice, text?, test :: yes :: no :: rest, line⟩ pos := by
  obtain ⟨x, hx, hsize⟩ := htest
  cases pos with
  | value =>
    obtain ⟨y, hy, hyes⟩ := hyes
    obtain ⟨z, hz, hno⟩ := hno
    refine ⟨.choice x y z line, by simp [Expr.ofNode, bind_eq_ok, hx, hy, hz], ?_⟩
    simp only [Expr.size, Expr.registers, count, counts]
    omega
  | statement inLoop =>
    obtain ⟨y, hy, hyes⟩ := hyes
    obtain ⟨z, hz, hno⟩ := hno
    refine ⟨.choice x y z line, by simp [Stmt.ofNode, bind_eq_ok, hx, hy, hz], ?_⟩
    simp only [Stmt.size, Stmt.registers, count, counts]
    omega

/-- A choice without a second branch is read where its branch is; as a value it may be null. -/
theorem isRead_choice {test yes : Node} {pos : Position} (htest : test.IsRead .value)
    (hyes : yes.IsRead pos) (text? : Option String) (line : UInt32) :
    IsRead ⟨.choice, text?, [test, yes], line⟩ pos := by
  obtain ⟨x, hx, hsize⟩ := htest
  cases pos with
  | value =>
    obtain ⟨y, hy, hyes⟩ := hyes
    refine ⟨.choice x y (.null line) line, by simp [Expr.ofNode, bind_eq_ok, hx, hy], ?_⟩
    simp only [Expr.size, Expr.registers, count, counts]
    omega
  | statement inLoop =>
    obtain ⟨y, hy, hyes⟩ := hyes
    refine ⟨.when x y line, by simp [Stmt.ofNode, bind_eq_ok, hx, hy], ?_⟩
    simp only [Stmt.size, Stmt.registers, count, counts]
    omega

theorem isRead_inclusion {inLoop : Bool} {path : Node} {pairs : List (Node × Node)}
    (hpath : path.IsRead .value) (hkeys : ∀ p ∈ pairs, p.1.tag ≠ .ident → p.1.IsRead .value)
    (hvalues : ∀ p ∈ pairs, p.2.IsRead .value) (text? : Option String) (line : UInt32) :
    IsRead ⟨.inclusion, text?, path :: inTurn pairs, line⟩ (.statement inLoop) := by
  obtain ⟨x, hx, hsize⟩ := hpath
  obtain ⟨xs, hxs, hsizes⟩ := exists_ofPairs hkeys hvalues
  by_cases hempty : (inTurn pairs).isEmpty
  · refine ⟨.inclusion x line, by simp [Stmt.ofNode, hx, hempty], ?_⟩
    simp only [Stmt.size, Stmt.registers, count, counts]
    omega
  · refine ⟨.inclusionWith x xs line, by simp [Stmt.ofNode, bind_eq_ok, hx, hempty, hxs], ?_⟩
    simp only [Stmt.size, Stmt.registers, count, counts]
    omega

/-- Every well-formed node is read where it stands. -/
theorem WellFormed.isRead {pos : Position} {n : Node} (h : n.WellFormed pos) :
    n.IsRead pos := by
  induction h with
  | block _ ih =>
    obtain ⟨body, hbody, hsize⟩ := exists_statements ih
    refine ⟨.block body, by simp [Stmt.ofNode, hbody], ?_⟩
    simp only [Stmt.size, Stmt.registers, count]
    omega
  | literalText =>
    refine ⟨_, rfl, ?_⟩
    simp only [Stmt.size, Stmt.registers, count]
    omega
  | @output text? value rest line inLoop _ ih =>
    obtain ⟨x, hx, hsize⟩ := ih
    have heffect := x.effect_le
    refine ⟨if value.tag = .assignment then .eval x else .output x line,
      by simp [Stmt.ofNode, hx], ?_⟩
    split <;> simp only [Stmt.size, Stmt.registers, count, counts] <;> omega
  | switch _ shape _ _ ih hvalues hbodies =>
    obtain ⟨x, hx, hsize⟩ := ih
    obtain ⟨as, has, hsizes⟩ := exists_arms shape hvalues hbodies
    refine ⟨.switch x as, by simp [Stmt.ofNode, bind_eq_ok, hx, has], ?_⟩
    simp only [Stmt.size, Stmt.registers, count, counts]
    omega
  | @foreach _ var _ _ _ line _ _ _ ih ihBody =>
    obtain ⟨x, hx, hsize⟩ := ih
    obtain ⟨b, hb, hbody⟩ := ihBody
    refine ⟨.foreach var.text x b line, by simp [Stmt.ofNode, bind_eq_ok, hx, hb], ?_⟩
    simp only [Stmt.size, Stmt.registers, count, counts]
    omega
  | @loop _ _ _ _ line _ _ _ ih ihBody =>
    obtain ⟨x, hx, hsize⟩ := ih
    obtain ⟨b, hb, hbody⟩ := ihBody
    refine ⟨.loop x b line, by simp [Stmt.ofNode, bind_eq_ok, hx, hb], ?_⟩
    simp only [Stmt.size, Stmt.registers, count, counts]
    omega
  | last =>
    refine ⟨.last _, rfl, ?_⟩
    simp only [Stmt.size, Stmt.registers, count]
    omega
  | next =>
    refine ⟨.next _, rfl, ?_⟩
    simp only [Stmt.size, Stmt.registers, count]
    omega
  | inclusion _ _ _ ih ihKeys ihValues => exact isRead_inclusion ih ihKeys ihValues _ _
  | @wrapper _ _ _ _ line _ _ _ ih ihBody =>
    obtain ⟨x, hx, hsize⟩ := ih
    obtain ⟨b, hb, hbody⟩ := ihBody
    refine ⟨.wrapper x b line, by simp [Stmt.ofNode, bind_eq_ok, hx, hb], ?_⟩
    simp only [Stmt.size, Stmt.registers, count, counts]
    omega
  | atom kind => exact isRead_atom kind _ _ _
  | @integer text? children line literal =>
    obtain ⟨k, hk⟩ := Option.isSome_iff_exists.1 literal
    refine ⟨.int k line, by simp [Expr.ofNode, integerLiteral, hk], ?_⟩
    simp only [Expr.size, Expr.registers, count]
    omega
  | @double text? children line literal =>
    obtain ⟨bits, hbits⟩ := Option.isSome_iff_exists.1 literal
    refine ⟨.float bits line, by simp [Expr.ofNode, doubleLiteral, hbits], ?_⟩
    simp only [Expr.size, Expr.registers, count]
    omega
  | @array _ _ line _ ih =>
    obtain ⟨xs, hxs, hsizes⟩ := exists_ofNodes ih
    refine ⟨.array xs line, by simp [Expr.ofNode, hxs], ?_⟩
    simp only [Expr.size, Expr.registers, count]
    omega
  | @map _ _ line _ _ ihKeys ihValues =>
    obtain ⟨xs, hxs, hsizes⟩ := exists_ofPairs ihKeys ihValues
    refine ⟨.map xs line, by simp [Expr.ofNode, hxs], ?_⟩
    simp only [Expr.size, Expr.registers, count]
    omega
  | operator kind _ _ ihLeft ihRight =>
    exact (isRead_operator kind ihLeft ihRight _ _ _).anywhere (List.mem_append_left _ kind) _
  | @negation _ _ _ line _ _ ih =>
    obtain ⟨x, hx, hsize⟩ := ih
    refine IsRead.anywhere ⟨.not x line, by simp [Expr.ofNode, hx], ?_⟩ (by decide) _
    simp only [Expr.size, Expr.registers, count, counts]
    omega
  | @assignment _ target _ _ line _ _ ih =>
    obtain ⟨x, hx, hsize⟩ := ih
    refine IsRead.anywhere ⟨.assign target.text x line, by simp [Expr.ofNode, hx], ?_⟩ (by decide) _
    simp only [Expr.size, Expr.registers, count, counts]
    omega
  | call takes _ ih =>
    exact (isRead_call takes ih _ _ _ _).anywhere (by decide) _
  | method name _ _ ihObject ih =>
    exact (isRead_method name ihObject ih _ _ _ _ _).anywhere (by decide) _
  | choice _ _ ihTest ihYes => exact isRead_choice ihTest ihYes _ _
  | choiceElse _ _ _ ihTest ihYes ihNo => exact isRead_choiceElse ihTest ihYes ihNo _ _ _

end Node

/-! ### Compilation -/

/-- Trees of fewer than `2 ^ 29` nodes, and all others that do not make too much of anything, are
compiled exactly if they are well-formed statements outside of loops. -/
theorem Program.compile_isOk_iff {tree : Node} {source : Source}
    (h : tree.count < 2 ^ 29 ∨ ∀ what, Program.compile tree source ≠ .error (.tooLarge what)) :
    (∃ p, Program.compile tree source = .ok p) ↔ tree.WellFormed (.statement false) := by
  constructor
  · rintro ⟨p, hp⟩
    obtain ⟨s, hs, -⟩ := Program.compile_eq_ok hp
    exact Stmt.ofNode_wellFormed tree hs
  · intro hformed
    obtain ⟨s, hs, hsize⟩ := hformed.isRead
    have hcompile : Program.compile tree source = s.program source := by
      rw [Program.compile, hs]
      rfl
    rw [hcompile] at h ⊢
    rcases h with h | h
    · exact s.exists_program (by omega) (by omega) source
    · match hp : s.program source with
      | .ok p => exact ⟨p, rfl⟩
      | .error e =>
        obtain ⟨what, rfl⟩ := Stmt.program_eq_error hp
        exact absurd hp (h what)

/-- The grammar holds of a loop that is left in its body, and not of a jump outside of loops. -/
theorem Program.compile_counting_isOk :
    (Node.counting.count < 2 ^ 29 ∧ (∃ p, Program.compile .counting .anonymous = .ok p) ∧
      Node.counting.WellFormed (.statement false)) ∧
    (Node.bare .last).count < 2 ^ 29 ∧ ¬(Node.bare .last).WellFormed (.statement false) := by
  have hok : (Program.compile .counting .anonymous).isOk := by decide +kernel
  have hcounting : ∃ p, Program.compile .counting .anonymous = .ok p := by
    match h : Program.compile .counting .anonymous with
    | .ok p => exact ⟨p, rfl⟩
    | .error e =>
      rw [h] at hok
      cases hok
  refine ⟨⟨by decide, hcounting, (compile_isOk_iff (.inl (by decide))).1 hcounting⟩, by decide, ?_⟩
  intro hlast
  obtain ⟨p, hp⟩ : ∃ p, Program.compile (.bare .last) .anonymous = .ok p :=
    (compile_isOk_iff (.inl (by decide))).2 hlast
  cases hp

end Stencil
