import Stencil.Proofs.Acceptance
import Stencil.Proofs.StmtPass

/-!
# One pass makes the program

A tree can be read as a template first, whose code has the numbers that were counted for it, or can
be compiled in one pass, with jumps that get their targets later. Both ways succeed for the same
trees, and come to the same program.

* `Compiler.performs_node`: the pass of a node adds the code of the statement that it is read as;
* `Stmt.program_eq_ok_iff`: what the program of a template is, with its counts put in last;
* `Compiler.program_eq_ok_iff`: one pass along a tree makes the program of the tree.
-/

namespace Stencil

/-! ### Nodes -/

namespace Compiler

variable {line : UInt32} {tag : Tag} {pass : Pass Unit} {A : Bool → Stmt → Prop}

theorem Performs.void (h : Performs pass A) : Performs (do expectVoid tag line none; pass) A := h

/-- The nodes in a row make the code of what they are read as. -/
def PerformNodes (ns : List Node) : Prop :=
  ∀ n ∈ ns, Performs (node none n) fun b s => Stmt.ofNode b n = .ok s

variable {ns children : List Node} {text? : Option String}

theorem performs_child (tag : Tag) (line : UInt32) (h : PerformNodes ns) (index : Nat) :
    Performs (child tag line (parts ns) index none)
      fun b s => IsAt (Stmt.ofNode b) ns index s := by
  unfold child
  rw [getElem?_parts]
  cases hn : ns[index]? with
  | none =>
    exact performs_fails (fun before => after_unsupported _ before ()) fun b s => not_isAt hn
  | some n =>
    exact (h n (List.mem_of_getElem? hn)).congr fun b s => (isAt_of_some hn).symm

theorem performs_sequence (h : PerformNodes ns) : Performs (sequence (parts ns))
    fun b s => ∃ body, Stmt.ofNodes b ns = .ok body ∧ s = .block body := by
  induction ns with
  | nil => exact performs_sequence_nil.congr fun b s => by simp [Stmt.ofNodes]
  | cons n ns ih =>
    obtain ⟨hn, hns⟩ := List.forall_mem_cons.1 h
    refine (performs_sequence_cons (fun dest => node dest n) hn (ih hns)).congr
      fun b s => ?_
    simp only [Stmt.ofNodes, bind_eq_ok, pure_eq_ok]
    grind

theorem performsArm_fails {arm : UInt32 → UInt32 → Pass Nat} {C : Bool → Arm → Prop}
    (harm : ∀ x y label before, After (arm x y) before label = ∅) (hC : ∀ b a, ¬C b a) :
    PerformsArm arm C := by
  intro X m label hm
  rw [harm, iUnion_empty (hC _)]

theorem unsupported_eq_ok {β : Type} {reason : Reason} {x : β} :
    (unsupported tag line reason : Except CompileError β) = .ok x ↔ False :=
  iff_false_intro nofun

/-- Arms are read one after the other. -/
theorem ofNodes_cons {b : Bool} {n : Node} {as : List Arm} :
    Arm.ofNodes b (n :: ns) = .ok as ↔ ∃ a rest, Arm.ofNodes b [n] = .ok [a] ∧
      Arm.ofNodes b ns = .ok rest ∧ as = a :: rest := by
  obtain ⟨tag, text?, children, line⟩ := n
  by_cases htag : tag = .arm
  · match children with
    | [body] | [value, body] =>
      simp only [Arm.ofNodes, if_pos htag, bind_eq_ok, pure_eq_ok]
      grind
    | [] | _ :: _ :: _ :: _ =>
      simp only [Arm.ofNodes, if_pos htag, bind_eq_ok, unsupported_eq_ok, false_and, exists_false]
  · rw [Arm.ofNodes, if_neg htag, Arm.ofNodes, if_neg htag]
    simp only [unsupported_eq_ok, false_and, exists_false]

theorem performsArm_arm (h : PerformNodes children) :
    PerformsArm (arm tag line (parts children))
      fun b a => Arm.ofNodes b [⟨tag, text?, children, line⟩] = .ok [a] := by
  unfold arm
  split
  · next htag =>
    match children, h with
    | [value, body], h =>
      refine (performsArm_test (fun dest => node dest value) (fun dest => node dest body)
        (expresses_node value) (h body (by simp))).congr fun b a => ?_
      simp only [Arm.ofNodes, if_pos htag, bind_eq_ok, pure_eq_ok]
      grind
    | [body], h =>
      refine (performsArm_always (fun dest => node dest body)
        (h body (by simp))).congr fun b a => ?_
      simp only [Arm.ofNodes, if_pos htag, bind_eq_ok, pure_eq_ok]
      grind
    | [], h | _ :: _ :: _ :: _, h =>
      refine performsArm_fails (fun _ _ _ before => after_unsupported _ before _) fun b a => ?_
      simp only [Arm.ofNodes, if_pos htag, bind_eq_ok, unsupported_eq_ok, false_and, exists_false,
        not_false_eq_true]
  · next htag =>
    refine performsArm_fails (fun _ _ _ before => after_unsupported _ before _) fun b a => ?_
    rw [Arm.ofNodes, if_neg htag, unsupported_eq_ok]
    exact id

theorem performsArms_arms (h : ∀ arm ∈ ns, PerformNodes arm.children) :
    PerformsArms (arms ns) fun b as => Arm.ofNodes b ns = .ok as := by
  induction ns with
  | nil =>
    refine performsArms_nil.congr fun b as => ?_
    simp [Arm.ofNodes, eq_comm]
  | cons n ns ih =>
    obtain ⟨hn, hns⟩ := List.forall_mem_cons.1 h
    obtain ⟨tag, text?, children, line⟩ := n
    exact (performsArms_cons (performsArm_arm hn) (ih hns)).congr fun b as => ofNodes_cons.symm

theorem makes_node {n : Node} (kind : n.tag ∈ Tag.actions) :
    Makes (fun dest => node dest n) (Expr.ofNode n = .ok ·) := by
  obtain ⟨tag, text?, children, line⟩ := n
  exact makes_action kind (expresses_nodes children) (expresses_names children) text?

theorem performs_node_output : Performs (node none ⟨.output, text?, children, line⟩)
    fun b s => Stmt.ofNode b ⟨.output, text?, children, line⟩ = .ok s := by
  cases children with
  | nil =>
    refine performs_fails (fun before => ?_) fun b s hs => by cases hs
    simp only [node]
    exact after_unsupported _ before ()
  | cons value rest =>
    simp only [node]
    refine Performs.void ?_
    split
    · next htag =>
      refine (makes_node (n := value) (by rw [htag]; decide)).eval.congr fun b s => ?_
      simp only [Stmt.ofNode, if_pos htag, bind_eq_ok, pure_eq_ok]
      grind
    · next htag =>
      refine (performs_output (expresses_node value)).congr fun b s => ?_
      simp only [Stmt.ofNode, if_neg htag, bind_eq_ok, pure_eq_ok]
      grind

theorem performs_node_choice (h : PerformNodes children) :
    Performs (node none ⟨.choice, text?, children, line⟩)
      fun b s => Stmt.ofNode b ⟨.choice, text?, children, line⟩ = .ok s := by
  have htest := expresses_child .choice line (expresses_nodes children) 0
  have hyes := performs_child .choice line h 1
  simp only [node, getElem?_parts]
  cases hno : children[2]? with
  | none =>
    refine (performs_when htest hyes).congr fun b s => ?_
    rcases children with _ | ⟨test, _ | ⟨yes, _ | ⟨no, rest⟩⟩⟩
    · simp [Stmt.ofNode, unsupported, isAt_nil]
    · simp [Stmt.ofNode, unsupported, bind_eq_ok, isAt_nil]
    · simp only [Stmt.ofNode, isAt_zero, isAt_succ, bind_eq_ok, pure_eq_ok]
      grind
    · cases hno
  | some no =>
    refine (performs_choice htest hyes (h no (List.mem_of_getElem? hno))).congr fun b s => ?_
    obtain _ | ⟨test, _ | ⟨yes, _ | ⟨no, rest⟩⟩⟩ := children <;> cases hno
    simp only [Stmt.ofNode, isAt_zero, isAt_succ, bind_eq_ok, pure_eq_ok]
    grind

theorem performs_node_switch (h : ∀ arm ∈ children, PerformNodes arm.children) :
    Performs (node none ⟨.switch, text?, children, line⟩)
      fun b s => Stmt.ofNode b ⟨.switch, text?, children, line⟩ = .ok s := by
  have hsubject := expresses_child .switch line (expresses_nodes children) 0
  match children, h with
  | [], _ =>
    simp only [node]
    refine (performs_switch hsubject performsArms_nil).void.congr fun b s => ?_
    simp [Stmt.ofNode, unsupported, isAt_nil]
  | subject :: cases, h =>
    simp only [node]
    refine (performs_switch hsubject
      (performsArms_arms fun arm harm => h arm (by simp [harm]))).void.congr fun b s => ?_
    simp only [Stmt.ofNode, isAt_zero, bind_eq_ok, pure_eq_ok]
    grind

theorem performs_node_foreach (h : PerformNodes children) :
    Performs (node none ⟨.foreach, text?, children, line⟩)
      fun b s => Stmt.ofNode b ⟨.foreach, text?, children, line⟩ = .ok s := by
  have hsource := expresses_child .foreach line (expresses_nodes children) 1
  have hbody := performs_child .foreach line h 2
  match children with
  | [] =>
    refine performs_fails (fun before => ?_) nofun
    simp only [node]
    exact after_unsupported _ before ()
  | var :: rest =>
    simp only [node]
    refine (performs_foreach var.text hsource hbody).void.congr fun b s => ?_
    match rest with
    | [] => simp [Stmt.ofNode, unsupported, isAt_nil]
    | [_] => simp [Stmt.ofNode, unsupported, bind_eq_ok, isAt_nil]
    | source :: body :: _ =>
      simp only [Stmt.ofNode, isAt_zero, isAt_succ, bind_eq_ok, pure_eq_ok]
      grind

theorem performs_node_loop (h : PerformNodes children) :
    Performs (node none ⟨.loop, text?, children, line⟩)
      fun b s => Stmt.ofNode b ⟨.loop, text?, children, line⟩ = .ok s := by
  have htest := expresses_child .loop line (expresses_nodes children) 0
  have hbody := performs_child .loop line h 1
  simp only [node]
  refine (performs_loop htest hbody).void.congr fun b s => ?_
  match children with
  | [] => simp [Stmt.ofNode, unsupported, isAt_nil]
  | [_] => simp [Stmt.ofNode, unsupported, bind_eq_ok, isAt_nil]
  | test :: body :: _ =>
    simp only [Stmt.ofNode, isAt_zero, isAt_succ, bind_eq_ok, pure_eq_ok]
    grind

theorem performs_node_inclusion : Performs (node none ⟨.inclusion, text?, children, line⟩)
    fun b s => Stmt.ofNode b ⟨.inclusion, text?, children, line⟩ = .ok s := by
  have hpath := expresses_child .inclusion line (expresses_nodes children) 0
  match children with
  | [] =>
    simp only [node]
    refine (performs_inclusion hpath).void.congr fun b s => ?_
    simp [Stmt.ofNode, unsupported, isAt_nil]
  | [path] =>
    simp only [node, pairs]
    refine (performs_inclusion hpath).void.congr fun b s => ?_
    simp only [Stmt.ofNode, isAt_zero, List.isEmpty_nil, if_true, bind_eq_ok, pure_eq_ok]
    grind
  | path :: key :: rest =>
    have hne : pairs (key :: rest) ≠ [] := fun hnil => by
      have hlength := length_pairs (key :: rest)
      rw [hnil] at hlength
      cases hlength
    simp only [node]
    by_cases heven : (key :: rest).length % 2 = 0
    · have hpairs := expressesAll_pairs _ heven (expresses_nodes (key :: rest))
      refine (performs_inclusionWith hpath hpairs hne
        (by rwa [length_pairs])).void.congr fun b s => ?_
      simp only [Stmt.ofNode, isAt_zero, List.isEmpty_cons, Bool.false_eq_true, if_false,
        if_pos heven, bind_eq_ok, pure_eq_ok]
      grind
    · refine (performs_inclusion_odd hne (by rwa [length_pairs])).void.congr fun b s => ?_
      simp only [Stmt.ofNode, List.isEmpty_cons, Bool.false_eq_true, if_false, if_neg heven,
        bind_eq_ok, unsupported_eq_ok, and_false, exists_false]

theorem performs_node_wrapper (h : PerformNodes children) :
    Performs (node none ⟨.wrapper, text?, children, line⟩)
      fun b s => Stmt.ofNode b ⟨.wrapper, text?, children, line⟩ = .ok s := by
  have hpath := expresses_child .wrapper line (expresses_nodes children) 0
  have hbody := performs_child .wrapper line h 1
  simp only [node]
  refine (performs_wrapper hpath hbody).void.congr fun b s => ?_
  match children with
  | [] | [_] => simp [Stmt.ofNode, unsupported, isAt_nil]
  | path :: body :: _ =>
    simp only [Stmt.ofNode, isAt_zero, isAt_succ, bind_eq_ok, pure_eq_ok]
    grind

mutual

/-- The pass of a node for no value makes the code of the statement that the node is read as. -/
theorem performs_node : (n : Node) →
    Performs (node none n) fun b s => Stmt.ofNode b n = .ok s
  | ⟨tag, text?, children, line⟩ => by
    have hchildren := performs_nodes children
    by_cases kind : tag ∈ Tag.actions
    · refine (makes_node (n := ⟨tag, text?, children, line⟩) kind).eval.congr fun b s => ?_
      simp only [Node.ofNode_action kind, bind_eq_ok, pure_eq_ok]
      grind
    cases tag
    case add | subtract | multiply | divide | modulo | concat | equals | notEquals | gt | ge | lt
        | le | range | member | andAnd | orOr | negation | assignment | call =>
      exact absurd (by decide) kind
    case integer | double | string | yes | no | nothing | ident | dollarVar | array
        | loopCount | loopIndex | loopHasNext | arm =>
      refine performs_fails (fun before => ?_) nofun
      simp only [node]
      exact after_throw _ before ()
    case map =>
      refine performs_fails (fun before => ?_) nofun
      simp only [node]
      split <;> exact after_throw _ before ()
    case block =>
      simp only [node]
      refine (performs_sequence hchildren).void.congr fun b s => ?_
      simp only [Stmt.ofNode, bind_eq_ok, pure_eq_ok]
      grind
    case literalText =>
      simp only [node]
      refine (performs_text _).void.congr fun b s => ?_
      simp only [Stmt.ofNode, Except.ok.injEq, eq_comm]
    case last =>
      simp only [node]
      refine (performs_leave (.last line) (fun _ => rfl) (fun _ _ _ => rfl) rfl
        rfl).void.congr fun b s => ?_
      cases b <;> simp [Stmt.ofNode, unsupported, eq_comm]
    case next =>
      simp only [node]
      refine (performs_leave (.next line) (fun _ => rfl) (fun _ _ _ => rfl) rfl
        rfl).void.congr fun b s => ?_
      cases b <;> simp [Stmt.ofNode, unsupported, eq_comm]
    case output => exact performs_node_output
    case choice => exact performs_node_choice hchildren
    case switch => exact performs_node_switch (performs_arms children)
    case foreach => exact performs_node_foreach hchildren
    case loop => exact performs_node_loop hchildren
    case inclusion => exact performs_node_inclusion
    case wrapper => exact performs_node_wrapper hchildren

theorem performs_nodes : (ns : List Node) → PerformNodes ns
  | [] => List.forall_mem_nil _
  | n :: rest => List.forall_mem_cons.2 ⟨performs_node n, performs_nodes rest⟩

theorem performs_arms : (ns : List Node) → ∀ arm ∈ ns, PerformNodes arm.children
  | [] => List.forall_mem_nil _
  | ⟨_, _, children, _⟩ :: rest =>
    List.forall_mem_cons.2 ⟨performs_nodes children, performs_arms rest⟩

end

end Compiler

/-! ### Counts and the last instruction -/

namespace Builder

variable {b b' : Builder} {r m : Nat}

/-- The builder with other counts of registers and loops. -/
def counting (b : Builder) (registers maxDepth : Nat) : Builder := { b with registers, maxDepth }

theorem number_counting (b : Builder) (r m : Nat) (o : Operand) :
    (b.counting r m).number o = (b.number o).map fun (b', n) => (b'.counting r m, n) := by
  cases o with
  | none => rfl
  | register n | target n | number n =>
    simp only [number]
    cases operand _ n <;> rfl
  | const c =>
    simp only [number, constant]
    change (operand .pool (Pool.intern b.pool c).2 >>= _) = _
    cases operand .pool (Pool.intern b.pool c).2 <;> rfl

theorem add_counting (b : Builder) (r m : Nat) (d : Draft) :
    (b.counting r m).add d = (b.add d).map (·.counting r m) := by
  unfold add
  rw [number_counting]
  cases b.number d.a with
  | error e => rfl
  | ok p =>
    obtain ⟨b₁, n⟩ := p
    change ((b₁.counting r m).number d.b >>= _) = Except.map _ (b₁.number d.b >>= _)
    rw [number_counting]
    cases b₁.number d.b <;> rfl

/-- Counts do not matter to drafts. -/
theorem addAll_counting (b : Builder) (r m : Nat) (ds : List Draft) :
    (b.counting r m).addAll ds = (b.addAll ds).map (·.counting r m) := by
  induction ds generalizing b with
  | nil => rfl
  | cons d ds ih =>
    unfold addAll
    rw [add_counting]
    cases b.add d with
    | error e => rfl
    | ok b₁ => exact ih b₁

/-- The line of the last draft is kept for what follows. -/
theorem line_addAll {ds : List Draft} (h : b.addAll ds = .ok b') :
    b'.line = (ds.getLast?.map (·.line)).getD b.line := by
  induction ds generalizing b with
  | nil =>
    cases h
    rfl
  | cons d ds ih =>
    obtain ⟨b₁, hd, h⟩ := bind_eq_ok.1 h
    obtain ⟨_, _, b₂, _, -, -, rfl⟩ := add_eq_ok_iff.1 hd
    rw [ih h, List.getLast?_cons]
    cases ds.getLast? <;> rfl

end Builder

/-- Nothing has been done yet. -/
def Layout.start : Layout := {}

/-- The instructions of a template are its code and one more, which is on the last line. -/
theorem Stmt.addAll_drafts {s : Stmt} {r m : Nat} {b' : Builder} :
    (({} : Builder).counting r m).addAll s.drafts = .ok b' ↔
      ∃ b, ({} : Builder).addAll (s.code [] {} 0 0) = .ok b ∧
        b' = (b.emit .finish 0 0).counting r m := by
  have hlast (b : Builder) (h : ({} : Builder).addAll (s.code [] {} 0 0) = .ok b) :
      (b.counting r m).addAll
        [⟨.finish, .none, .none, ((s.code [] {} 0 0).getLast?.map (·.line)).getD 0⟩] =
          .ok ((b.emit .finish 0 0).counting r m) := by
    rw [Builder.addAll_singleton, ← Builder.line_addAll h]
    rfl
  rw [drafts, Builder.addAll_append_eq_ok, Builder.addAll_counting]
  constructor
  · rintro ⟨b₁, hb₁, h⟩
    cases hb : ({} : Builder).addAll (s.code [] {} 0 0) with
    | error e =>
      rw [hb] at hb₁
      cases hb₁
    | ok b =>
      rw [hb] at hb₁
      cases hb₁
      rw [hlast b hb] at h
      cases h
      exact ⟨b, rfl, rfl⟩
  · rintro ⟨b, hb, rfl⟩
    exact ⟨b.counting r m, by rw [hb]; rfl, hlast b hb⟩

/-- The program of a template is its code with one more instruction, if all numbers fit. -/
theorem Stmt.program_eq_ok_iff {s : Stmt} {source : Source} {p : Program} :
    s.program source = .ok p ↔ s.registers < operandLimit ∧
      ∃ b, ({} : Builder).addAll (s.code [] {} 0 0) = .ok b ∧
        p = ((b.emit .finish 0 0).counting s.registers s.loopDepth).build source := by
  unfold program
  by_cases hroom : operandLimit ≤ s.registers
  · rw [if_pos hroom]
    exact iff_of_false nofun fun h => absurd h.1 (Nat.not_lt.2 hroom)
  · rw [if_neg hroom]
    have hstart : ({ registers := s.registers, maxDepth := s.loopDepth } : Builder) =
        ({} : Builder).counting s.registers s.loopDepth := rfl
    change (_ >>= _) = _ ↔ _
    simp only [hstart, bind_eq_ok, pure_eq_ok, Stmt.addAll_drafts]
    constructor
    · rintro ⟨_, ⟨b, hb, rfl⟩, rfl⟩
      exact ⟨Nat.lt_of_not_le hroom, b, hb, rfl⟩
    · rintro ⟨-, b, hb, rfl⟩
      exact ⟨_, ⟨b, hb, rfl⟩, rfl⟩

namespace Compiler

theorem compilers_start : Layout.start.compilers = {({} : Compiler)} := by
  ext c
  constructor
  · rintro ⟨-, b, ⟨⟩, rfl⟩
    rfl
  · rintro rfl
    exact ⟨by decide, {}, rfl, rfl⟩

theorem program_eq_ok {tree : Node} {source : Source} {p : Program} :
    program tree source = .ok p ↔ ∃ c, Returns (node none tree) {} () c ∧
      p = (c.toBuilder.emit .finish 0 0).build source := by
  have hpass (n : Nat) (c' : Compiler) :
      Returns (do node none tree; doing (Assembly.emit .finish 0 0)) {} n c' ↔
        ∃ c, Returns (node none tree) {} () c ∧ n = c.instructions.size ∧
          c' = { c with toBuilder := c.toBuilder.emit .finish 0 0 } := by
    rw [returns_bind]
    exact ⟨fun ⟨_, c, h, h'⟩ => ⟨c, h, (returns_of_run rfl).1 h'⟩,
      fun ⟨c, h, h'⟩ => ⟨(), c, h, (returns_of_run rfl).2 h'⟩⟩
  unfold program
  rcases hrun : (do node none tree; doing (Assembly.emit .finish 0 0) : Pass Nat).run {}
    with ⟨e | n, c'⟩
  · refine iff_of_false (by simp [hrun]) ?_
    rintro ⟨c, h, -⟩
    exact not_returns hrun ((hpass _ _).2 ⟨c, h, rfl, rfl⟩)
  · obtain ⟨c, h, -, rfl⟩ := (hpass _ _).1 hrun
    simp only [hrun, Except.ok.injEq]
    constructor
    · rintro rfl
      exact ⟨c, h, rfl⟩
    · rintro ⟨c₁, h₁, rfl⟩
      cases h.symm.trans h₁
      rfl

/-- One pass along a tree makes the program of the tree, and fails if the tree has none. -/
theorem program_eq_ok_iff {tree : Node} {source : Source} {p : Program} :
    program tree source = .ok p ↔ Program.compile tree source = .ok p := by
  have hpass (c : Compiler) : Returns (node none tree) {} () c ↔
      ∃ s, Stmt.ofNode false tree = .ok s ∧ c ∈ (Layout.start.perform s).compilers := by
    have hmem := Set.ext_iff.1 (performs_node tree Layout.start ()) c
    simp only [compilers_start, mem_after, Set.mem_singleton_iff, exists_eq_left, Set.mem_iUnion,
      exists_prop] at hmem
    exact hmem
  have hregisters (s : Stmt) : (Layout.start.perform s).registers = s.registers := Nat.zero_add _
  have hdepth (s : Stmt) : (Layout.start.perform s).maxDepth = s.loopDepth := by
    change max 0 (0 + s.loopDepth) = s.loopDepth
    omega
  have hbuild (s : Stmt) (b : Builder) :
      (((Layout.start.perform s).compiler b).toBuilder.emit .finish 0 0).build source =
        ((b.emit .finish 0 0).counting s.registers s.loopDepth).build source := by
    simp only [Layout.compiler, hregisters, hdepth]
    rfl
  simp only [program_eq_ok, hpass, Program.compile, bind_eq_ok, Stmt.program_eq_ok_iff]
  constructor
  · rintro ⟨_, ⟨s, hs, hroom, b, hb, rfl⟩, rfl⟩
    exact ⟨s, hs, hregisters s ▸ hroom, b, hb, hbuild s b⟩
  · rintro ⟨s, hs, hroom, b, hb, rfl⟩
    exact ⟨_, ⟨s, hs, (hregisters s).symm ▸ hroom, b, hb, rfl⟩, (hbuild s b).symm⟩

end Compiler

end Stencil
