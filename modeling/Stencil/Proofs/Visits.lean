import Stencil.Proofs.Reading

/-!
# The nodes that the compiler visits

Not all of a tree is compiled: children beyond those that a kind of node needs are passed over, and
so is the target of an assignment. Loops count only where the compiler comes by.

* `Tag.visits`: the children of a node that the compiler visits;
* `Node.nesting`, `Stmt.nesting`: how deep nodes or statements of a kind are nested;
* `Stmt.ofNode_nesting`: a statement has the nesting of the tree that it is read from;
* `Node.lacks`: trees that have no node of a kind at all.
-/

namespace Stencil

/-! ### Nesting in trees -/

/-- Does the compiler visit child number `index` of a node of this kind? -/
def Tag.visits (parent : Tag) (index : Nat) : Bool :=
  match parent with
  | block | array | map | call | switch | arm | inclusion => true
  | output | negation => index < 1
  | add | subtract | multiply | divide | modulo | concat | equals | notEquals | gt | ge | lt | le
  | andAnd | orOr | member | range | loop | wrapper => index < 2
  | choice => index < 3
  | assignment => index == 1
  | foreach => index == 1 || index == 2
  | literalText | integer | double | string | yes | no | nothing | ident | dollarVar | last | next
  | loopCount | loopIndex | loopHasNext => false

mutual

/-- How deep visited nodes of a kind are nested in a tree. -/
def Node.nesting (kind : Tag) : Node → Nat
  | ⟨tag, _, children, _⟩ =>
    (if tag = kind then 1 else 0) + Node.nestings kind tag 0 children

/-- How deep such nodes are nested in the children of a node, from number `index` on. -/
def Node.nestings (kind parent : Tag) (index : Nat) : List Node → Nat
  | [] => 0
  | n :: rest =>
    max (if parent.visits index then n.nesting kind else 0)
      (Node.nestings kind parent (index + 1) rest)

end

/-- Is a node of this kind a loop? -/
def Tag.isLoop : Tag → Bool
  | foreach | loop => true
  | _ => false

namespace Node

variable {kind parent : Tag}

theorem nesting_of_not_isLoop (hkind : kind.isLoop) {tag : Tag} (htag : tag.isLoop = false)
    (text? : Option String) (children : List Node) (line : UInt32) :
    Node.nesting kind ⟨tag, text?, children, line⟩ = Node.nestings kind tag 0 children := by
  have hne : tag ≠ kind := by
    rintro rfl
    rw [hkind] at htag
    cases htag
  rw [nesting, if_neg hne, Nat.zero_add]

/-- Children that are not visited do not matter. -/
theorem nestings_beyond {index : Nat} (h : ∀ i, index ≤ i → parent.visits i = false)
    (ns : List Node) : nestings kind parent index ns = 0 := by
  induction ns generalizing index with
  | nil => rfl
  | cons n ns ih =>
    rw [nestings, h index (Nat.le_refl _), ih fun i hi => h i (by omega)]
    rfl

theorem nestings_pair (hvisits : ∀ i, parent.visits i = decide (i < 2)) (l r : Node)
    (rest : List Node) :
    nestings kind parent 0 (l :: r :: rest) = max (l.nesting kind) (r.nesting kind) := by
  have hrest : nestings kind parent 2 rest = 0 :=
    nestings_beyond (fun i hi => by simp [hvisits, Nat.not_lt.2 hi]) rest
  simp [nestings, hvisits, hrest]

theorem nestings_eq_zero {ns : List Node} (h : ∀ n ∈ ns, n.nesting kind = 0) (index : Nat) :
    nestings kind parent index ns = 0 := by
  induction ns generalizing index with
  | nil => rfl
  | cons n ns ih =>
    rw [List.forall_mem_cons] at h
    rw [nestings, h.1, ih h.2, ite_self]
    rfl

/-- No child of a name is visited. -/
theorem nesting_leaf (hkind : kind.isLoop) {n : Node} (hn : n.tag = .string ∨ n.tag = .ident) :
    n.nesting kind = 0 := by
  obtain ⟨tag, text?, children, line⟩ := n
  rcases hn with rfl | rfl
  · rw [nesting_of_not_isLoop hkind rfl]
    exact nestings_beyond (fun _ _ => rfl) children
  · rw [nesting_of_not_isLoop hkind rfl]
    exact nestings_beyond (fun _ _ => rfl) children

end Node

/-! ### Expressions hold no loops -/

theorem BinaryOp.visits_of_ofTag? {tag : Tag} {op : BinaryOp} (h : BinaryOp.ofTag? tag = some op) :
    tag.isLoop = false ∧ ∀ i, tag.visits i = decide (i < 2) := by
  cases tag <;> cases h <;> exact ⟨rfl, fun _ => rfl⟩

mutual

/-- No loop is visited in a node that is read as an expression. -/
theorem Expr.ofNode_nesting {kind : Tag} (hkind : kind.isLoop) :
    (n : Node) → {e : Expr} → Expr.ofNode n = .ok e → n.nesting kind = 0
  | ⟨tag, text?, children, line⟩, e, h => by
    match hop : BinaryOp.ofTag? tag with
    | some op =>
      obtain ⟨hloop, hvisits⟩ := BinaryOp.visits_of_ofTag? hop
      simp only [Expr.ofNode_binary hop, bind_eq_ok, pure_eq_ok] at h
      obtain ⟨⟨left, right⟩, h, rfl⟩ := h
      rw [Node.nesting_of_not_isLoop hkind hloop]
      exact Expr.ofOperands_nesting hkind hvisits children h
    | none =>
    cases tag
    case add | subtract | multiply | divide | modulo | concat | equals | notEquals | gt | ge | lt
        | le | range | member => cases hop
    case block | literalText | output | switch | foreach | loop | last | next | inclusion
        | wrapper | arm => cases h
    case string | yes | no | nothing | ident | dollarVar | loopCount | loopIndex | loopHasNext
        | integer | double =>
      rw [Node.nesting_of_not_isLoop hkind rfl]
      exact Node.nestings_beyond (fun _ _ => rfl) children
    case andAnd | orOr =>
      simp only [Expr.ofNode, bind_eq_ok, pure_eq_ok] at h
      obtain ⟨⟨left, right⟩, h, rfl⟩ := h
      rw [Node.nesting_of_not_isLoop hkind rfl]
      exact Expr.ofOperands_nesting hkind (fun _ => rfl) children h
    case negation =>
      match children, h with
      | operand :: rest, h =>
        simp only [Expr.ofNode, bind_eq_ok, pure_eq_ok] at h
        obtain ⟨x, hx, rfl⟩ := h
        rw [Node.nesting_of_not_isLoop hkind rfl, Node.nestings,
          Expr.ofNode_nesting hkind operand hx, ite_self, Nat.zero_max]
        exact Node.nestings_beyond (fun i hi => by simp [Tag.visits]; omega) rest
    case array =>
      simp only [Expr.ofNode, bind_eq_ok, pure_eq_ok] at h
      obtain ⟨items, hitems, rfl⟩ := h
      rw [Node.nesting_of_not_isLoop hkind rfl]
      exact Node.nestings_eq_zero (Expr.ofNodes_nesting hkind children hitems) 0
    case map =>
      simp only [Expr.ofNode] at h
      split at h
      · next heven =>
        simp only [bind_eq_ok, pure_eq_ok] at h
        obtain ⟨pairs, hpairs, rfl⟩ := h
        rw [Node.nesting_of_not_isLoop hkind rfl]
        exact Node.nestings_eq_zero (Expr.ofPairs_nesting hkind children heven hpairs) 0
      · cases h
    case choice =>
      match children, h with
      | test :: branches, h =>
        simp only [Expr.ofNode, bind_eq_ok] at h
        obtain ⟨t, ht, h⟩ := h
        have htest := Expr.ofNode_nesting hkind test ht
        rw [Node.nesting_of_not_isLoop hkind rfl]
        match branches, h with
        | [yes], h =>
          simp only [bind_eq_ok, pure_eq_ok] at h
          obtain ⟨y, hy, rfl⟩ := h
          simp [Node.nestings, htest, Expr.ofNode_nesting hkind yes hy]
        | yes :: no :: rest, h =>
          simp only [bind_eq_ok, pure_eq_ok] at h
          obtain ⟨y, hy, n, hn, rfl⟩ := h
          have hrest : Node.nestings kind .choice 3 rest = 0 :=
            Node.nestings_beyond (fun i hi => by simp [Tag.visits]; omega) rest
          simp [Node.nestings, htest, Expr.ofNode_nesting hkind yes hy,
            Expr.ofNode_nesting hkind no hn, hrest]
    case assignment =>
      match children, h with
      | target :: value :: rest, h =>
        simp only [Expr.ofNode, bind_eq_ok, pure_eq_ok] at h
        obtain ⟨v, hv, rfl⟩ := h
        have hrest : Node.nestings kind .assignment 2 rest = 0 :=
          Node.nestings_beyond (fun i hi => by simp [Tag.visits]; omega) rest
        rw [Node.nesting_of_not_isLoop hkind rfl]
        simp [Node.nestings, Tag.visits, Expr.ofNode_nesting hkind value hv, hrest]
    case call =>
      rw [Node.nesting_of_not_isLoop hkind rfl]
      match children, h with
      | ⟨.ident, name?, parts, nameLine⟩ :: args, h =>
        refine Node.nestings_eq_zero (List.forall_mem_cons.2
          ⟨Node.nesting_leaf hkind (.inr rfl), ?_⟩) 0
        unfold Expr.ofNode at h
        dsimp only at h
        split at h
        · match args, h with
          | [arg], h =>
            simp only [bind_eq_ok, pure_eq_ok] at h
            obtain ⟨x, hx, rfl⟩ := h
            exact List.forall_mem_singleton.2 (Expr.ofNode_nesting hkind arg hx)
        · split at h
          · match args, h with
            | template :: args, h =>
              simp only [bind_eq_ok, pure_eq_ok] at h
              obtain ⟨t, ht, xs, hxs, rfl⟩ := h
              exact List.forall_mem_cons.2 ⟨Expr.ofNode_nesting hkind template ht,
                Expr.ofNodes_nesting hkind args hxs⟩
          · simp only [bind_eq_ok, pure_eq_ok] at h
            obtain ⟨xs, hxs, rfl⟩ := h
            exact Expr.ofNodes_nesting hkind args hxs
      | ⟨.member, _, object :: key :: rest, _⟩ :: args, h =>
        simp only [Expr.ofNode] at h
        split at h
        · next hkey =>
          simp only [bind_eq_ok, pure_eq_ok] at h
          obtain ⟨o, ho, xs, hxs, rfl⟩ := h
          refine Node.nestings_eq_zero (List.forall_mem_cons.2
            ⟨?_, Expr.ofNodes_nesting hkind args hxs⟩) 0
          rw [Node.nesting_of_not_isLoop hkind rfl, Node.nestings_pair fun _ => rfl,
            Expr.ofNode_nesting hkind object ho, Node.nesting_leaf hkind hkey]
          rfl
        · cases h

/-- The same for the operands of a node, which are there. -/
theorem Expr.ofOperands_nesting {kind : Tag} (hkind : kind.isLoop) {tag : Tag} {line : UInt32}
    (hvisits : ∀ i, tag.visits i = decide (i < 2)) :
    (children : List Node) → {operands : Expr × Expr} →
      Expr.ofOperands tag line children = .ok operands → Node.nestings kind tag 0 children = 0
  | [], _, h => by cases h
  | [l], _, h => by
    simp only [Expr.ofOperands, bind_eq_ok] at h
    obtain ⟨_, _, h⟩ := h
    cases h
  | l :: r :: rest, _, h => by
    simp only [Expr.ofOperands, bind_eq_ok, pure_eq_ok] at h
    obtain ⟨_, hl, _, hr, rfl⟩ := h
    rw [Node.nestings_pair hvisits, Expr.ofNode_nesting hkind l hl, Expr.ofNode_nesting hkind r hr]
    rfl

theorem Expr.ofNodes_nesting {kind : Tag} (hkind : kind.isLoop) :
    (ns : List Node) → {es : List Expr} → Expr.ofNodes ns = .ok es →
      ∀ n ∈ ns, n.nesting kind = 0
  | [], _, _ => List.forall_mem_nil _
  | n :: rest, _, h => by
    simp only [Expr.ofNodes, bind_eq_ok, pure_eq_ok] at h
    obtain ⟨e, he, es, hes, rfl⟩ := h
    exact List.forall_mem_cons.2
      ⟨Expr.ofNode_nesting hkind n he, Expr.ofNodes_nesting hkind rest hes⟩

theorem Expr.ofPairs_nesting {kind : Tag} (hkind : kind.isLoop) :
    (ns : List Node) → ns.length % 2 = 0 → {es : List Expr} → Expr.ofPairs ns = .ok es →
      ∀ n ∈ ns, n.nesting kind = 0
  | [], _, _, _ => List.forall_mem_nil _
  | [_], heven, _, _ => by cases heven
  | key :: value :: rest, heven, _, h => by
    have hrest : rest.length % 2 = 0 := by
      simp only [List.length_cons] at heven
      omega
    by_cases hkey : key.tag = .ident
    · simp only [Expr.ofPairs, hkey, if_true, bind_eq_ok, pure_eq_ok] at h
      obtain ⟨_, rfl, v, hv, es, hes, rfl⟩ := h
      exact List.forall_mem_cons.2 ⟨Node.nesting_leaf hkind (.inr hkey), List.forall_mem_cons.2
        ⟨Expr.ofNode_nesting hkind value hv, Expr.ofPairs_nesting hkind rest hrest hes⟩⟩
    · simp only [Expr.ofPairs, hkey, if_false, bind_eq_ok, pure_eq_ok] at h
      obtain ⟨k, hk, v, hv, es, hes, rfl⟩ := h
      exact List.forall_mem_cons.2 ⟨Expr.ofNode_nesting hkind key hk, List.forall_mem_cons.2
        ⟨Expr.ofNode_nesting hkind value hv, Expr.ofPairs_nesting hkind rest hrest hes⟩⟩

end

/-! ### Statements -/

mutual

/-- How deep loops of a kind are nested in a statement. -/
def Stmt.nesting (kind : Tag) : Stmt → Nat
  | .block body => Stmt.nestings kind body
  | .when _ body _ => body.nesting kind
  | .choice _ yes no _ => max (yes.nesting kind) (no.nesting kind)
  | .switch _ arms => Arm.nestings kind arms
  | .foreach _ _ body _ => (if Tag.foreach = kind then 1 else 0) + body.nesting kind
  | .loop _ body _ => (if Tag.loop = kind then 1 else 0) + body.nesting kind
  | .wrapper _ body _ => body.nesting kind
  | .text _ _ | .output _ _ | .eval _ | .last _ | .next _ | .inclusion _ _
  | .inclusionWith _ _ _ => 0

/-- The same for statements in a row. -/
def Stmt.nestings (kind : Tag) : List Stmt → Nat
  | [] => 0
  | s :: rest => max (s.nesting kind) (Stmt.nestings kind rest)

/-- The same for the arms of a switch. -/
def Arm.nestings (kind : Tag) : List Arm → Nat
  | [] => 0
  | .test _ body _ :: rest | .always body _ :: rest =>
    max (body.nesting kind) (Arm.nestings kind rest)

end

mutual

/-- A statement has the nesting of the node that it is read from. -/
theorem Stmt.ofNode_nesting {kind : Tag} (hkind : kind.isLoop) : {inLoop : Bool} →
    (n : Node) → {s : Stmt} → Stmt.ofNode inLoop n = .ok s → n.nesting kind = s.nesting kind
  | _, ⟨tag, text?, children, line⟩, s, h => by
    cases tag
    case integer | double | string | yes | no | nothing | ident | dollarVar | array | map
        | loopCount | loopIndex | loopHasNext | arm => cases h
    case add | subtract | multiply | divide | modulo | concat | equals | notEquals | gt | ge | lt
        | le | range | member | andAnd | orOr | negation | call | assignment =>
      simp only [Stmt.ofNode, bind_eq_ok, pure_eq_ok] at h
      obtain ⟨e, he, rfl⟩ := h
      exact Expr.ofNode_nesting hkind _ he
    case block =>
      simp only [Stmt.ofNode, bind_eq_ok, pure_eq_ok] at h
      obtain ⟨body, hbody, rfl⟩ := h
      rw [Node.nesting_of_not_isLoop hkind rfl]
      exact Stmt.ofNodes_nestings hkind children 0 hbody
    case literalText =>
      cases h
      rw [Node.nesting_of_not_isLoop hkind rfl]
      exact Node.nestings_beyond (fun _ _ => rfl) children
    case output =>
      match children, h with
      | value :: rest, h =>
        simp only [Stmt.ofNode, bind_eq_ok, pure_eq_ok] at h
        obtain ⟨e, he, rfl⟩ := h
        rw [Node.nesting_of_not_isLoop hkind rfl, Node.nestings,
          Expr.ofNode_nesting hkind value he, ite_self, Nat.zero_max,
          Node.nestings_beyond (fun i hi => by simp [Tag.visits]; omega) rest]
        split <;> rfl
    case choice =>
      match children, h with
      | test :: branches, h =>
        simp only [Stmt.ofNode, bind_eq_ok] at h
        obtain ⟨t, ht, h⟩ := h
        have htest := Expr.ofNode_nesting hkind test ht
        rw [Node.nesting_of_not_isLoop hkind rfl]
        match branches, h with
        | [body], h =>
          simp only [bind_eq_ok, pure_eq_ok] at h
          obtain ⟨b, hb, rfl⟩ := h
          simp [Node.nestings, Tag.visits, Stmt.nesting, htest,
            Stmt.ofNode_nesting hkind body hb]
        | yes :: no :: rest, h =>
          simp only [bind_eq_ok, pure_eq_ok] at h
          obtain ⟨y, hy, n, hn, rfl⟩ := h
          have hrest : Node.nestings kind .choice 3 rest = 0 :=
            Node.nestings_beyond (fun i hi => by simp [Tag.visits]; omega) rest
          simp [Node.nestings, Tag.visits, Stmt.nesting, htest, hrest,
            Stmt.ofNode_nesting hkind yes hy, Stmt.ofNode_nesting hkind no hn]
    case switch =>
      match children, h with
      | subject :: arms, h =>
        simp only [Stmt.ofNode, bind_eq_ok, pure_eq_ok] at h
        obtain ⟨x, hx, as, has, rfl⟩ := h
        rw [Node.nesting_of_not_isLoop hkind rfl, Node.nestings,
          Expr.ofNode_nesting hkind subject hx, ite_self, Nat.zero_max]
        exact Arm.ofNodes_nestings hkind arms 1 has
    case foreach =>
      match children, h with
      | var :: source :: rest, h =>
        simp only [Stmt.ofNode, bind_eq_ok] at h
        obtain ⟨x, hx, h⟩ := h
        match rest, h with
        | body :: rest, h =>
          simp only [bind_eq_ok, pure_eq_ok] at h
          obtain ⟨b, hb, rfl⟩ := h
          have hrest : Node.nestings kind .foreach 3 rest = 0 :=
            Node.nestings_beyond (fun i hi => by simp [Tag.visits]; omega) rest
          simp [Node.nesting, Node.nestings, Tag.visits, Stmt.nesting, hrest,
            Expr.ofNode_nesting hkind source hx, Stmt.ofNode_nesting hkind body hb]
    case loop =>
      match children, h with
      | test :: rest, h =>
        simp only [Stmt.ofNode, bind_eq_ok] at h
        obtain ⟨x, hx, h⟩ := h
        match rest, h with
        | body :: rest, h =>
          simp only [bind_eq_ok, pure_eq_ok] at h
          obtain ⟨b, hb, rfl⟩ := h
          rw [Node.nesting, Node.nestings_pair fun _ => rfl, Expr.ofNode_nesting hkind test hx,
            Stmt.ofNode_nesting hkind body hb, Nat.zero_max]
          rfl
    case last | next =>
      simp only [Stmt.ofNode] at h
      split at h <;> cases h
      rw [Node.nesting_of_not_isLoop hkind rfl]
      exact Node.nestings_beyond (fun _ _ => rfl) children
    case inclusion =>
      rw [Node.nesting_of_not_isLoop hkind rfl]
      match children, h with
      | path :: bindings, h =>
        simp only [Stmt.ofNode, bind_eq_ok] at h
        obtain ⟨x, hx, h⟩ := h
        have hpath := Expr.ofNode_nesting hkind path hx
        split at h
        · next hempty =>
          cases h
          rw [List.isEmpty_iff.1 hempty, Node.nestings, hpath, ite_self]
          rfl
        · split at h
          · next heven =>
            simp only [bind_eq_ok, pure_eq_ok] at h
            obtain ⟨xs, hxs, rfl⟩ := h
            exact Node.nestings_eq_zero (List.forall_mem_cons.2
              ⟨hpath, Expr.ofPairs_nesting hkind bindings heven hxs⟩) 0
          · cases h
    case wrapper =>
      match children, h with
      | path :: body :: rest, h =>
        simp only [Stmt.ofNode, bind_eq_ok, pure_eq_ok] at h
        obtain ⟨b, hb, x, hx, rfl⟩ := h
        rw [Node.nesting_of_not_isLoop hkind rfl, Node.nestings_pair fun _ => rfl,
          Expr.ofNode_nesting hkind path hx, Stmt.ofNode_nesting hkind body hb, Nat.zero_max]
        rfl

theorem Stmt.ofNodes_nestings {kind : Tag} (hkind : kind.isLoop) : {inLoop : Bool} →
    (ns : List Node) → (index : Nat) → {body : List Stmt} → Stmt.ofNodes inLoop ns = .ok body →
      Node.nestings kind .block index ns = Stmt.nestings kind body
  | _, [], _, _, h => by
    cases h
    rfl
  | _, n :: rest, index, _, h => by
    simp only [Stmt.ofNodes, bind_eq_ok, pure_eq_ok] at h
    obtain ⟨s, hs, ss, hss, rfl⟩ := h
    rw [Node.nestings, Stmt.ofNode_nesting hkind n hs, Stmt.ofNodes_nestings hkind rest _ hss]
    rfl

theorem Arm.ofNodes_nestings {kind : Tag} (hkind : kind.isLoop) : {inLoop : Bool} →
    (ns : List Node) → (index : Nat) → {arms : List Arm} → Arm.ofNodes inLoop ns = .ok arms →
      Node.nestings kind .switch index ns = Arm.nestings kind arms
  | _, [], _, _, h => by
    cases h
    rfl
  | _, ⟨tag, text?, parts, line⟩ :: rest, index, _, h => by
    by_cases htag : tag = .arm
    · subst htag
      match parts, h with
      | [value, body], h =>
        simp only [Arm.ofNodes, if_true, bind_eq_ok, pure_eq_ok] at h
        obtain ⟨x, hx, b, hb, _, rfl, as, has, rfl⟩ := h
        rw [Node.nestings, Node.nesting_of_not_isLoop hkind rfl,
          Arm.ofNodes_nestings hkind rest _ has]
        simp [Node.nestings, Tag.visits, Arm.nestings, Expr.ofNode_nesting hkind value hx,
          Stmt.ofNode_nesting hkind body hb]
      | [body], h =>
        simp only [Arm.ofNodes, if_true, bind_eq_ok, pure_eq_ok] at h
        obtain ⟨b, hb, _, rfl, as, has, rfl⟩ := h
        rw [Node.nestings, Node.nesting_of_not_isLoop hkind rfl,
          Arm.ofNodes_nestings hkind rest _ has]
        simp [Node.nestings, Tag.visits, Arm.nestings, Stmt.ofNode_nesting hkind body hb]
      | [], h | _ :: _ :: _ :: _, h =>
        simp only [Arm.ofNodes, if_true, unsupported, bind_eq_ok] at h
        obtain ⟨_, h, _⟩ := h
        cases h
    · rw [Arm.ofNodes, if_neg htag] at h
      cases h

end

mutual

/-- The depth of loops that is recorded is the nesting of loops along collections. -/
theorem Stmt.nesting_foreach : (s : Stmt) → s.nesting .foreach = s.loopDepth
  | .block body => Stmt.nestings_foreach body
  | .when _ body _ | .wrapper _ body _ => Stmt.nesting_foreach body
  | .choice _ yes no _ => congrArg₂ max (Stmt.nesting_foreach yes) (Stmt.nesting_foreach no)
  | .switch _ arms => Arm.nestings_foreach arms
  | .foreach _ _ body _ => by
    rw [Stmt.nesting, Stmt.loopDepth, Stmt.nesting_foreach body, if_pos rfl, Nat.add_comm]
  | .loop _ body _ => by
    rw [Stmt.nesting, Stmt.loopDepth, Stmt.nesting_foreach body, if_neg nofun, Nat.zero_add]
  | .text _ _ | .output _ _ | .eval _ | .last _ | .next _ | .inclusion _ _
  | .inclusionWith _ _ _ => rfl

theorem Stmt.nestings_foreach : (body : List Stmt) →
    Stmt.nestings .foreach body = Stmt.loopDepths body
  | [] => rfl
  | s :: rest => congrArg₂ max (Stmt.nesting_foreach s) (Stmt.nestings_foreach rest)

theorem Arm.nestings_foreach : (arms : List Arm) →
    Arm.nestings .foreach arms = Arm.loopDepths arms
  | [] => rfl
  | .test _ body _ :: rest | .always body _ :: rest =>
    congrArg₂ max (Stmt.nesting_foreach body) (Arm.nestings_foreach rest)

end

/-! ### Trees without loops -/

mutual

/-- Is no node of a tree of the kind, whether it is visited or not? -/
def Node.lacks (kind : Tag) : Node → Bool
  | ⟨tag, _, children, _⟩ => tag != kind && Node.allLack kind children

/-- Is no node of some trees of the kind? -/
def Node.allLack (kind : Tag) : List Node → Bool
  | [] => true
  | n :: rest => n.lacks kind && Node.allLack kind rest

end

mutual

theorem Node.nesting_of_lacks {kind : Tag} : (n : Node) → n.lacks kind → n.nesting kind = 0
  | ⟨tag, _, children, _⟩, h => by
    rw [Node.lacks, Bool.and_eq_true, bne_iff_ne] at h
    rw [Node.nesting, if_neg h.1, Node.nestings_of_allLack tag 0 children h.2]

theorem Node.nestings_of_allLack {kind : Tag} (parent : Tag) : (index : Nat) →
    (ns : List Node) → Node.allLack kind ns → Node.nestings kind parent index ns = 0
  | _, [], _ => rfl
  | index, n :: rest, h => by
    rw [Node.allLack, Bool.and_eq_true] at h
    rw [Node.nestings, Node.nesting_of_lacks n h.1, ite_self, Nat.zero_max,
      Node.nestings_of_allLack parent (index + 1) rest h.2]

end

end Stencil
