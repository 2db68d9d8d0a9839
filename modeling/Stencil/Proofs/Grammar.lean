import Stencil.Proofs.Reading

/-!
# The grammar of trees

Which trees are templates depends on where a node stands: as a statement, in the body of a loop or
outside, or where a value is needed. Only names are read without a position: those of variables,
functions and methods, and keys of maps that are bare names.

* `Position`: where a node stands;
* `Node.WellFormed`: the grammar, with one rule for every kind of node;
* `Expr.ofNode_wellFormed`, `Stmt.ofNode_wellFormed`: only well-formed nodes are read.
-/

namespace Stencil

/-- Where a node stands: as a statement, in the body of a loop or not, or where a value is
needed. -/
inductive Position
  | statement (inLoop : Bool)
  | value

namespace Tag

/-- The kinds of nodes with two operands. -/
def operators : List Tag :=
  [.add, .subtract, .multiply, .divide, .modulo, .concat, .equals, .notEquals, .gt, .ge, .lt, .le,
   .range, .member, .andAnd, .orOr]

/-- The kinds of nodes that are values by themselves, whatever their text is. -/
def atoms : List Tag :=
  [.string, .yes, .no, .nothing, .ident, .dollarVar, .loopCount, .loopIndex, .loopHasNext]

/-- The kinds of values that may stand as statements, for what they do besides. -/
def actions : List Tag := operators ++ [.negation, .assignment, .call]

theorem not_mem_atoms {tag : Tag} (h : tag ∈ actions) : tag ∉ atoms := by
  revert h
  cases tag <;> decide

end Tag

namespace Node

/-- An arm of a switch has a body as its last child and may have a value before it. -/
def IsArm (n : Node) : Prop := n.tag = .arm ∧ (n.children.length = 1 ∨ n.children.length = 2)

/-- The number of arguments is one that a function takes. Only the host application knows what
functions take that are not built in. -/
def Takes (function : String) (count : Nat) : Prop :=
  (function ∈ ["lc", "uc", "uri", "url"] → count = 1) ∧ (function = "sprintf" → 1 ≤ count)

/-- The grammar of trees. Texts and children that a rule does not mention may be any. -/
inductive WellFormed : Position → Node → Prop
  -- Only as statements
  | block {text? children line inLoop}
      (body : ∀ n ∈ children, WellFormed (.statement inLoop) n) :
      WellFormed (.statement inLoop) ⟨.block, text?, children, line⟩
  | literalText {text? children line inLoop} :
      WellFormed (.statement inLoop) ⟨.literalText, text?, children, line⟩
  -- An assignment is a value exactly if it is a statement, so this is the rule for both.
  | output {text? e rest line inLoop} (value : WellFormed .value e) :
      WellFormed (.statement inLoop) ⟨.output, text?, e :: rest, line⟩
  | switch {text? e arms line inLoop} (subject : WellFormed .value e)
      (shape : ∀ arm ∈ arms, arm.IsArm)
      (values : ∀ arm ∈ arms, ∀ n ∈ arm.children.dropLast, WellFormed .value n)
      (bodies : ∀ arm ∈ arms, ∀ n ∈ arm.children.getLast?, WellFormed (.statement inLoop) n) :
      WellFormed (.statement inLoop) ⟨.switch, text?, e :: arms, line⟩
  | foreach {text? var e s rest line inLoop} (source : WellFormed .value e)
      (body : WellFormed (.statement true) s) :
      WellFormed (.statement inLoop) ⟨.foreach, text?, var :: e :: s :: rest, line⟩
  | loop {text? e s rest line inLoop} (test : WellFormed .value e)
      (body : WellFormed (.statement true) s) :
      WellFormed (.statement inLoop) ⟨.loop, text?, e :: s :: rest, line⟩
  | last {text? children line} : WellFormed (.statement true) ⟨.last, text?, children, line⟩
  | next {text? children line} : WellFormed (.statement true) ⟨.next, text?, children, line⟩
  | inclusion {text? e pairs line inLoop} (path : WellFormed .value e)
      (keys : ∀ p ∈ pairs, p.1.tag ≠ .ident → WellFormed .value p.1)
      (values : ∀ p ∈ pairs, WellFormed .value p.2) :
      WellFormed (.statement inLoop) ⟨.inclusion, text?, e :: inTurn pairs, line⟩
  | wrapper {text? e s rest line inLoop} (path : WellFormed .value e)
      (body : WellFormed (.statement inLoop) s) :
      WellFormed (.statement inLoop) ⟨.wrapper, text?, e :: s :: rest, line⟩
  -- Only as values
  | atom {tag text? children line} (kind : tag ∈ Tag.atoms) :
      WellFormed .value ⟨tag, text?, children, line⟩
  | integer {text? children line} (literal : (Decimal.integer? (text?.getD "")).isSome) :
      WellFormed .value ⟨.integer, text?, children, line⟩
  | double {text? children line} (literal : (Decimal.double? (text?.getD "")).isSome) :
      WellFormed .value ⟨.double, text?, children, line⟩
  | array {text? children line} (items : ∀ n ∈ children, WellFormed .value n) :
      WellFormed .value ⟨.array, text?, children, line⟩
  | map {text? pairs line} (keys : ∀ p ∈ pairs, p.1.tag ≠ .ident → WellFormed .value p.1)
      (values : ∀ p ∈ pairs, WellFormed .value p.2) :
      WellFormed .value ⟨.map, text?, inTurn pairs, line⟩
  -- As both
  | operator {tag text? l r rest line pos} (kind : tag ∈ Tag.operators)
      (left : WellFormed .value l) (right : WellFormed .value r) :
      WellFormed pos ⟨tag, text?, l :: r :: rest, line⟩
  | negation {text? e rest line pos} (operand : WellFormed .value e) :
      WellFormed pos ⟨.negation, text?, e :: rest, line⟩
  | assignment {text? target e rest line pos} (value : WellFormed .value e) :
      WellFormed pos ⟨.assignment, text?, target :: e :: rest, line⟩
  | call {text? name? parts nameLine args line pos} (takes : Takes (name?.getD "") args.length)
      (values : ∀ n ∈ args, WellFormed .value n) :
      WellFormed pos ⟨.call, text?, ⟨.ident, name?, parts, nameLine⟩ :: args, line⟩
  | method {text? memberText? e key rest memberLine args line pos}
      (name : key.tag = .string ∨ key.tag = .ident) (object : WellFormed .value e)
      (values : ∀ n ∈ args, WellFormed .value n) :
      WellFormed pos
        ⟨.call, text?, ⟨.member, memberText?, e :: key :: rest, memberLine⟩ :: args, line⟩
  | choice {text? e s line pos} (test : WellFormed .value e) (yes : WellFormed pos s) :
      WellFormed pos ⟨.choice, text?, [e, s], line⟩
  | choiceElse {text? e s t rest line pos} (test : WellFormed .value e)
      (yes : WellFormed pos s) (no : WellFormed pos t) :
      WellFormed pos ⟨.choice, text?, e :: s :: t :: rest, line⟩

@[simp] theorem inTurn_cons (p : Node × Node) (pairs : List (Node × Node)) :
    inTurn (p :: pairs) = p.1 :: p.2 :: inTurn pairs := rfl

/-- A value that may stand as a statement may stand anywhere. -/
theorem WellFormed.anywhere {tag : Tag} {text? : Option String} {children : List Node}
    {line : UInt32} (h : WellFormed .value ⟨tag, text?, children, line⟩)
    (kind : tag ∈ Tag.actions) (pos : Position) :
    WellFormed pos ⟨tag, text?, children, line⟩ := by
  cases h with
  | atom hatom => exact absurd hatom (Tag.not_mem_atoms kind)
  | integer | double | array | map | choice | choiceElse => exact absurd kind (by decide)
  | operator hop left right => exact .operator hop left right
  | negation operand => exact .negation operand
  | assignment value => exact .assignment value
  | call takes values => exact .call takes values
  | method name object values => exact .method name object values

end Node

theorem Tag.operator_cases {tag : Tag} (h : tag ∈ Tag.operators) :
    (∃ op, BinaryOp.ofTag? tag = some op) ∨ tag = .andAnd ∨ tag = .orOr := by
  revert h
  cases tag <;> simp [Tag.operators, BinaryOp.ofTag?]

theorem BinaryOp.mem_operators {tag : Tag} {op : BinaryOp} (h : BinaryOp.ofTag? tag = some op) :
    tag ∈ Tag.operators := by
  revert h
  cases tag <;> simp [Tag.operators, BinaryOp.ofTag?]

/-- The built-in functions on texts are those that take a single argument. -/
theorem TextOp.ofName?_isSome {name : String} :
    (TextOp.ofName? name).isSome ↔ name ∈ ["lc", "uc", "uri", "url"] := by
  unfold TextOp.ofName?
  split <;> simp_all

/-- A key of a map is read as a name if it is a bare one. -/
def Expr.ofKey (key : Node) : Except CompileError Expr :=
  if key.tag = .ident then .ok (.str key.text key.line) else Expr.ofNode key

theorem Expr.ofPairs_cons (key value : Node) (rest : List Node) :
    Expr.ofPairs (key :: value :: rest) = (do
      let k ← Expr.ofKey key
      let v ← Expr.ofNode value
      return k :: v :: (← Expr.ofPairs rest)) := by
  rw [Expr.ofPairs, Expr.ofKey]
  split <;> rfl

/-! ### What is read is well-formed -/

mutual

/-- A node that is read as an expression is a well-formed value. -/
theorem Expr.ofNode_wellFormed :
    (n : Node) → {e : Expr} → Expr.ofNode n = .ok e → n.WellFormed .value
  | ⟨tag, text?, children, line⟩, e, h => by
    -- All operators are read alike, which leaves the other tags to go through one by one.
    match hop : BinaryOp.ofTag? tag with
    | some op =>
      simp only [Expr.ofNode_binary hop, bind_eq_ok] at h
      obtain ⟨⟨left, right⟩, h, -⟩ := h
      obtain ⟨l, r, rest, rfl, hl, hr⟩ := Expr.ofOperands_wellFormed children h
      exact .operator (BinaryOp.mem_operators hop) hl hr
    | none =>
    cases tag
    case add | subtract | multiply | divide | modulo | concat | equals | notEquals | gt | ge | lt
        | le | range | member => cases hop
    case block | literalText | output | switch | foreach | loop | last | next | inclusion
        | wrapper | arm => cases h
    case string | yes | no | nothing | ident | dollarVar | loopCount | loopIndex | loopHasNext =>
      exact .atom (by decide)
    case integer =>
      simp only [Expr.ofNode, integerLiteral] at h
      split at h
      · next hn => exact .integer (by rw [hn]; rfl)
      · cases h
    case double =>
      simp only [Expr.ofNode, doubleLiteral] at h
      split at h
      · next hn => exact .double (by rw [hn]; rfl)
      · cases h
    case andAnd | orOr =>
      simp only [Expr.ofNode, bind_eq_ok] at h
      obtain ⟨⟨left, right⟩, h, -⟩ := h
      obtain ⟨l, r, rest, rfl, hl, hr⟩ := Expr.ofOperands_wellFormed children h
      exact .operator (by decide) hl hr
    case negation =>
      match children, h with
      | operand :: _, h =>
        simp only [Expr.ofNode, bind_eq_ok] at h
        obtain ⟨x, hx, -⟩ := h
        exact .negation (Expr.ofNode_wellFormed operand hx)
    case array =>
      simp only [Expr.ofNode, bind_eq_ok] at h
      obtain ⟨xs, hxs, -⟩ := h
      exact .array (Expr.ofNodes_wellFormed children hxs)
    case map =>
      simp only [Expr.ofNode] at h
      split at h
      · next heven =>
        obtain ⟨xs, hxs, -⟩ := bind_eq_ok.1 h
        obtain ⟨pairs, rfl, hkeys, hvalues⟩ := Expr.ofPairs_wellFormed children heven hxs
        exact .map hkeys hvalues
      · cases h
    case choice =>
      match children, h with
      | test :: branches, h =>
        simp only [Expr.ofNode, bind_eq_ok] at h
        obtain ⟨t, ht, h⟩ := h
        have htest := Expr.ofNode_wellFormed test ht
        match branches, h with
        | [yes], h =>
          obtain ⟨y, hy, -⟩ := bind_eq_ok.1 h
          exact .choice htest (Expr.ofNode_wellFormed yes hy)
        | yes :: no :: _, h =>
          simp only [bind_eq_ok] at h
          obtain ⟨y, hy, n, hn, -⟩ := h
          exact .choiceElse htest (Expr.ofNode_wellFormed yes hy) (Expr.ofNode_wellFormed no hn)
    case assignment =>
      match children, h with
      | _ :: value :: _, h =>
        simp only [Expr.ofNode, bind_eq_ok] at h
        obtain ⟨v, hv, -⟩ := h
        exact .assignment (Expr.ofNode_wellFormed value hv)
    case call =>
      match children, h with
      | ⟨.ident, name?, _, nameLine⟩ :: args, h =>
        unfold Expr.ofNode at h
        dsimp only at h
        split at h
        · next op hop =>
          match args, h with
          | [arg], h =>
            obtain ⟨x, hx, -⟩ := bind_eq_ok.1 h
            refine .call ⟨fun _ => rfl, fun _ => Nat.le_refl 1⟩ ?_
            exact List.forall_mem_singleton.2 (Expr.ofNode_wellFormed arg hx)
        · next hop =>
          have htext : name?.getD "" ∉ ["lc", "uc", "uri", "url"] := by
            rw [← TextOp.ofName?_isSome, hop]
            exact nofun
          split at h
          · next hname =>
            match args, h with
            | template :: args, h =>
              simp only [bind_eq_ok] at h
              obtain ⟨t, ht, xs, hxs, -⟩ := h
              refine .call ⟨fun h => absurd h htext, fun _ => Nat.succ_pos _⟩ ?_
              exact List.forall_mem_cons.2
                ⟨Expr.ofNode_wellFormed template ht, Expr.ofNodes_wellFormed args hxs⟩
          · next hname =>
            obtain ⟨xs, hxs, -⟩ := bind_eq_ok.1 h
            exact .call ⟨fun h => absurd h htext, fun h => absurd h hname⟩
              (Expr.ofNodes_wellFormed args hxs)
      | ⟨.member, _, object :: key :: _, _⟩ :: args, h =>
        simp only [Expr.ofNode] at h
        split at h
        · next hkey =>
          simp only [bind_eq_ok] at h
          obtain ⟨o, ho, xs, hxs, -⟩ := h
          exact .method hkey (Expr.ofNode_wellFormed object ho) (Expr.ofNodes_wellFormed args hxs)
        · cases h

/-- Nodes that are read as operands begin with two well-formed values. -/
theorem Expr.ofOperands_wellFormed {tag : Tag} {line : UInt32} :
    (children : List Node) → {es : Expr × Expr} → Expr.ofOperands tag line children = .ok es →
      ∃ l r rest, children = l :: r :: rest ∧ l.WellFormed .value ∧ r.WellFormed .value
  | [], _, h => by cases h
  | [l], _, h => by
    simp only [Expr.ofOperands, bind_eq_ok] at h
    obtain ⟨_, _, h⟩ := h
    cases h
  | l :: r :: rest, _, h => by
    simp only [Expr.ofOperands, bind_eq_ok] at h
    obtain ⟨_, hl, _, hr, -⟩ := h
    exact ⟨l, r, rest, rfl, Expr.ofNode_wellFormed l hl, Expr.ofNode_wellFormed r hr⟩

theorem Expr.ofNodes_wellFormed :
    (ns : List Node) → {es : List Expr} → Expr.ofNodes ns = .ok es →
      ∀ n ∈ ns, n.WellFormed .value
  | [], _, _ => List.forall_mem_nil _
  | n :: rest, _, h => by
    simp only [Expr.ofNodes, bind_eq_ok] at h
    obtain ⟨e, he, es, hes, -⟩ := h
    exact List.forall_mem_cons.2 ⟨Expr.ofNode_wellFormed n he, Expr.ofNodes_wellFormed rest hes⟩

/-- An even number of nodes is read as pairs only if all values are well-formed, and all keys but
bare names. -/
theorem Expr.ofPairs_wellFormed :
    (ns : List Node) → {es : List Expr} → ns.length % 2 = 0 → Expr.ofPairs ns = .ok es →
      ∃ pairs, ns = Node.inTurn pairs ∧
        (∀ p ∈ pairs, p.1.tag ≠ .ident → p.1.WellFormed .value) ∧
        ∀ p ∈ pairs, p.2.WellFormed .value
  | [], _, _, _ => ⟨[], rfl, List.forall_mem_nil _, List.forall_mem_nil _⟩
  | [_], _, heven, _ => by cases heven
  | key :: value :: rest, _, heven, h => by
    simp only [Expr.ofPairs_cons, bind_eq_ok] at h
    obtain ⟨k, hk, v, hv, es, hes, -⟩ := h
    have hkey : key.tag ≠ .ident → key.WellFormed .value := by
      intro hkey
      rw [Expr.ofKey, if_neg hkey] at hk
      exact Expr.ofNode_wellFormed key hk
    simp only [List.length_cons] at heven
    obtain ⟨pairs, rfl, hkeys, hvalues⟩ := Expr.ofPairs_wellFormed rest (by omega) hes
    exact ⟨(key, value) :: pairs, rfl, List.forall_mem_cons.2 ⟨hkey, hkeys⟩,
      List.forall_mem_cons.2 ⟨Expr.ofNode_wellFormed value hv, hvalues⟩⟩

end

mutual

/-- A node that is read as a statement is a well-formed one. -/
theorem Stmt.ofNode_wellFormed {inLoop : Bool} :
    (n : Node) → {s : Stmt} → Stmt.ofNode inLoop n = .ok s → n.WellFormed (.statement inLoop)
  | ⟨tag, text?, children, line⟩, s, h => by
    cases tag
    case integer | double | string | yes | no | nothing | ident | dollarVar | array | map
        | loopCount | loopIndex | loopHasNext | arm => cases h
    case add | subtract | multiply | divide | modulo | concat | equals | notEquals | gt | ge | lt
        | le | range | member | andAnd | orOr | negation | call | assignment =>
      simp only [Stmt.ofNode, bind_eq_ok] at h
      obtain ⟨e, he, -⟩ := h
      exact (Expr.ofNode_wellFormed _ he).anywhere (by decide) _
    case block =>
      simp only [Stmt.ofNode, bind_eq_ok] at h
      obtain ⟨body, hbody, -⟩ := h
      exact .block (Stmt.ofNodes_wellFormed children hbody)
    case literalText => exact .literalText
    case output =>
      match children, h with
      | value :: _, h =>
        simp only [Stmt.ofNode, bind_eq_ok] at h
        obtain ⟨e, he, -⟩ := h
        exact .output (Expr.ofNode_wellFormed value he)
    case choice =>
      match children, h with
      | test :: branches, h =>
        simp only [Stmt.ofNode, bind_eq_ok] at h
        obtain ⟨t, ht, h⟩ := h
        have htest := Expr.ofNode_wellFormed test ht
        match branches, h with
        | [body], h =>
          obtain ⟨b, hb, -⟩ := bind_eq_ok.1 h
          exact .choice htest (Stmt.ofNode_wellFormed body hb)
        | yes :: no :: _, h =>
          simp only [bind_eq_ok] at h
          obtain ⟨y, hy, n, hn, -⟩ := h
          exact .choiceElse htest (Stmt.ofNode_wellFormed yes hy) (Stmt.ofNode_wellFormed no hn)
    case switch =>
      match children, h with
      | subject :: arms, h =>
        simp only [Stmt.ofNode, bind_eq_ok] at h
        obtain ⟨x, hx, as, has, -⟩ := h
        obtain ⟨hshape, hvalues, hbodies⟩ := Arm.ofNodes_wellFormed arms has
        exact .switch (Expr.ofNode_wellFormed subject hx) hshape hvalues hbodies
    case foreach =>
      match children, h with
      | var :: source :: rest, h =>
        simp only [Stmt.ofNode, bind_eq_ok] at h
        obtain ⟨x, hx, h⟩ := h
        match rest, h with
        | body :: _, h =>
          obtain ⟨b, hb, -⟩ := bind_eq_ok.1 h
          exact .foreach (Expr.ofNode_wellFormed source hx) (Stmt.ofNode_wellFormed body hb)
    case loop =>
      match children, h with
      | test :: rest, h =>
        simp only [Stmt.ofNode, bind_eq_ok] at h
        obtain ⟨x, hx, h⟩ := h
        match rest, h with
        | body :: _, h =>
          obtain ⟨b, hb, -⟩ := bind_eq_ok.1 h
          exact .loop (Expr.ofNode_wellFormed test hx) (Stmt.ofNode_wellFormed body hb)
    case last =>
      cases inLoop with
      | true => exact .last
      | false => cases h
    case next =>
      cases inLoop with
      | true => exact .next
      | false => cases h
    case inclusion =>
      match children, h with
      | path :: bindings, h =>
        simp only [Stmt.ofNode, bind_eq_ok] at h
        obtain ⟨x, hx, h⟩ := h
        obtain ⟨pairs, rfl, hkeys, hvalues⟩ : ∃ pairs, bindings = Node.inTurn pairs ∧
            (∀ p ∈ pairs, p.1.tag ≠ .ident → p.1.WellFormed .value) ∧
            ∀ p ∈ pairs, p.2.WellFormed .value := by
          split at h
          · next hempty => exact ⟨[], List.isEmpty_iff.1 hempty, by simp, by simp⟩
          · split at h
            · next heven =>
              obtain ⟨xs, hxs, -⟩ := bind_eq_ok.1 h
              exact Expr.ofPairs_wellFormed bindings heven hxs
            · cases h
        exact .inclusion (Expr.ofNode_wellFormed path hx) hkeys hvalues
    case wrapper =>
      match children, h with
      | path :: body :: _, h =>
        simp only [Stmt.ofNode, bind_eq_ok] at h
        obtain ⟨b, hb, x, hx, -⟩ := h
        exact .wrapper (Expr.ofNode_wellFormed path hx) (Stmt.ofNode_wellFormed body hb)

theorem Stmt.ofNodes_wellFormed {inLoop : Bool} :
    (ns : List Node) → {body : List Stmt} → Stmt.ofNodes inLoop ns = .ok body →
      ∀ n ∈ ns, n.WellFormed (.statement inLoop)
  | [], _, _ => List.forall_mem_nil _
  | n :: rest, _, h => by
    simp only [Stmt.ofNodes, bind_eq_ok] at h
    obtain ⟨s, hs, ss, hss, -⟩ := h
    exact List.forall_mem_cons.2 ⟨Stmt.ofNode_wellFormed n hs, Stmt.ofNodes_wellFormed rest hss⟩

/-- Nodes that are read as arms are arms with well-formed values and bodies. -/
theorem Arm.ofNodes_wellFormed {inLoop : Bool} :
    (ns : List Node) → {arms : List Arm} → Arm.ofNodes inLoop ns = .ok arms →
      (∀ arm ∈ ns, arm.IsArm) ∧
        (∀ arm ∈ ns, ∀ n ∈ arm.children.dropLast, n.WellFormed .value) ∧
        ∀ arm ∈ ns, ∀ n ∈ arm.children.getLast?, n.WellFormed (.statement inLoop)
  | [], _, _ => by simp
  | ⟨tag, text?, parts, line⟩ :: rest, _, h => by
    by_cases htag : tag = .arm
    · match parts, h with
      | [value, body], h =>
        simp only [Arm.ofNodes, if_pos htag, bind_eq_ok] at h
        obtain ⟨x, hx, b, hb, _, _, as, has, -⟩ := h
        obtain ⟨hshape, hvalues, hbodies⟩ := Arm.ofNodes_wellFormed rest has
        have hvalue := Expr.ofNode_wellFormed value hx
        have hbody := Stmt.ofNode_wellFormed body hb
        simp only [List.forall_mem_cons]
        exact ⟨⟨⟨htag, .inr rfl⟩, hshape⟩, ⟨by simpa using hvalue, hvalues⟩,
          by simpa using hbody, hbodies⟩
      | [body], h =>
        simp only [Arm.ofNodes, if_pos htag, bind_eq_ok] at h
        obtain ⟨b, hb, _, _, as, has, -⟩ := h
        obtain ⟨hshape, hvalues, hbodies⟩ := Arm.ofNodes_wellFormed rest has
        have hbody := Stmt.ofNode_wellFormed body hb
        simp only [List.forall_mem_cons]
        exact ⟨⟨⟨htag, .inl rfl⟩, hshape⟩, ⟨by simp, hvalues⟩, by simpa using hbody, hbodies⟩
      | [], h | _ :: _ :: _ :: _, h =>
        simp only [Arm.ofNodes, if_pos htag, unsupported, bind_eq_ok] at h
        obtain ⟨_, h, _⟩ := h
        cases h
    · rw [Arm.ofNodes, if_neg htag] at h
      cases h

end

end Stencil
