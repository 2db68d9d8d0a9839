import Stencil.Proofs.Evaluation
import Stencil.Proofs.Numbering

/-!
# Reading a tree does not change what it means

The compiler reads a tree as a statement before it writes any code. The statement does what the
tree does, and its expressions have the values of the nodes that they are read from.

* `Expr.ofNode_eval`: the value of an expression that a node is read as;
* `Stmt.ofNode_part`: what a statement does that a node is read as.
-/

namespace Stencil

variable {σ : Type}

theorem Node.eval_binary (site : Site σ) (env : Env) {tag : Tag} {op : BinaryOp}
    (h : BinaryOp.ofTag? tag = some op) (text? : Option String) (l r : Node) (rest : List Node)
    (line : UInt32) :
    Node.eval site env ⟨tag, text?, l :: r :: rest, line⟩ = (do
      let v ← l.eval site env
      site.settle line (op.apply site.ctx.hosts v (← r.eval site env))) := by
  cases tag <;> cases h <;> rfl

theorem Expr.ofNode_binary {tag : Tag} {op : BinaryOp} (h : BinaryOp.ofTag? tag = some op)
    (text? : Option String) (children : List Node) (line : UInt32) :
    Expr.ofNode ⟨tag, text?, children, line⟩ = (do
      let (left, right) ← Expr.ofOperands tag line children
      return .binary op left right line) := by
  cases tag <;> cases h <;> rfl

mutual

/-- The expression that a node is read as has the value of the node. -/
theorem Expr.ofNode_eval (site : Site σ) (env : Env) :
    (n : Node) → {e : Expr} → Expr.ofNode n = .ok e → n.eval site env = e.eval site env
  | ⟨tag, text?, children, line⟩, e, h => by
    -- All operators are read alike, which leaves the other tags to go through one by one.
    match hop : BinaryOp.ofTag? tag with
    | some op =>
      simp only [Expr.ofNode_binary hop, bind_eq_ok, pure_eq_ok] at h
      obtain ⟨⟨left, right⟩, h, rfl⟩ := h
      obtain ⟨l, r, rest, rfl, hl, hr⟩ := Expr.ofOperands_eval site env children h
      rw [Node.eval_binary site env hop, hl, hr]
      rfl
    | none =>
    cases tag
    case add | subtract | multiply | divide | modulo | concat | equals | notEquals | gt | ge | lt
        | le | range | member => cases hop
    case block | literalText | output | switch | foreach | loop | last | next | inclusion
        | wrapper | arm => cases h
    case string | yes | no | nothing | ident | dollarVar | loopCount | loopIndex | loopHasNext =>
      cases h
      rfl
    case integer =>
      simp only [Expr.ofNode, integerLiteral] at h
      split at h
      · next n hn =>
        cases h
        simp only [Node.eval, Expr.eval, hn, Option.map_some, Option.getD_some]
      · cases h
    case double =>
      simp only [Expr.ofNode, doubleLiteral] at h
      split at h
      · next n hn =>
        cases h
        simp only [Node.eval, Expr.eval, hn, Option.map_some, Option.getD_some]
      · cases h
    case andAnd | orOr =>
      simp only [Expr.ofNode, bind_eq_ok, pure_eq_ok] at h
      obtain ⟨⟨left, right⟩, h, rfl⟩ := h
      obtain ⟨l, r, rest, rfl, hl, hr⟩ := Expr.ofOperands_eval site env children h
      simp only [Node.eval, Expr.eval, hl, hr]
    case negation =>
      match children, h with
      | operand :: _, h =>
        simp only [Expr.ofNode, bind_eq_ok, pure_eq_ok] at h
        obtain ⟨x, hx, rfl⟩ := h
        simp only [Node.eval, Expr.eval, Expr.ofNode_eval site env operand hx]
    case array =>
      simp only [Expr.ofNode, bind_eq_ok, pure_eq_ok] at h
      obtain ⟨items, hitems, rfl⟩ := h
      simp only [Node.eval, Expr.eval, Expr.ofNodes_eval site env children hitems]
    case map =>
      simp only [Expr.ofNode] at h
      split at h
      · simp only [bind_eq_ok, pure_eq_ok] at h
        obtain ⟨pairs, hpairs, rfl⟩ := h
        simp only [Node.eval, Expr.eval, Expr.ofPairs_eval site env children hpairs]
      · cases h
    case choice =>
      match children, h with
      | test :: branches, h =>
        simp only [Expr.ofNode, bind_eq_ok] at h
        obtain ⟨t, ht, h⟩ := h
        match branches, h with
        | [yes], h =>
          simp only [bind_eq_ok, pure_eq_ok] at h
          obtain ⟨y, hy, rfl⟩ := h
          simp only [Node.eval, Expr.eval, Expr.ofNode_eval site env test ht,
            Expr.ofNode_eval site env yes hy]
        | yes :: no :: _, h =>
          simp only [bind_eq_ok, pure_eq_ok] at h
          obtain ⟨y, hy, n, hn, rfl⟩ := h
          simp only [Node.eval, Expr.eval, Expr.ofNode_eval site env test ht,
            Expr.ofNode_eval site env yes hy, Expr.ofNode_eval site env no hn]
    case assignment =>
      match children, h with
      | target :: value :: _, h =>
        simp only [Expr.ofNode, bind_eq_ok, pure_eq_ok] at h
        obtain ⟨v, hv, rfl⟩ := h
        simp only [Node.eval, Expr.eval, Expr.ofNode_eval site env value hv]
    case call =>
      match children, h with
      | ⟨.ident, name?, _, nameLine⟩ :: args, h =>
        unfold Expr.ofNode at h
        dsimp only at h
        split at h
        · next op hop =>
          match args, h with
          | [arg], h =>
            simp only [bind_eq_ok, pure_eq_ok] at h
            obtain ⟨x, hx, rfl⟩ := h
            unfold Node.eval
            simp only [Expr.eval, hop, Expr.ofNode_eval site env arg hx]
        · next hop =>
          split at h
          · next hname =>
            match args, h with
            | template :: args, h =>
              simp only [bind_eq_ok, pure_eq_ok] at h
              obtain ⟨t, ht, xs, hxs, rfl⟩ := h
              rw [hname] at hop
              unfold Node.eval
              simp only [Expr.eval, hname, hop, if_true,
                Expr.ofNode_eval site env template ht, Expr.ofNodes_eval site env args hxs]
          · next hname =>
            simp only [bind_eq_ok, pure_eq_ok] at h
            obtain ⟨xs, hxs, rfl⟩ := h
            unfold Node.eval
            simp only [Expr.eval, hop, if_neg hname,
              Expr.ofNodes_eval site env args hxs]
      | ⟨.member, _, object :: key :: _, _⟩ :: args, h =>
        simp only [Expr.ofNode] at h
        split at h
        · simp only [bind_eq_ok, pure_eq_ok] at h
          obtain ⟨o, ho, xs, hxs, rfl⟩ := h
          simp only [Node.eval, Expr.eval, Expr.ofNode_eval site env object ho,
            Expr.ofNodes_eval site env args hxs]
        · cases h

/-- The same for the operands of a node, which are there. -/
theorem Expr.ofOperands_eval (site : Site σ) (env : Env) {tag : Tag} {line : UInt32} :
    (children : List Node) → {left right : Expr} →
      Expr.ofOperands tag line children = .ok (left, right) →
      ∃ l r rest, children = l :: r :: rest ∧ l.eval site env = left.eval site env ∧
        r.eval site env = right.eval site env
  | [], _, _, h => by cases h
  | [l], _, _, h => by
    simp only [Expr.ofOperands, bind_eq_ok] at h
    obtain ⟨_, _, h⟩ := h
    cases h
  | l :: r :: rest, _, _, h => by
    simp only [Expr.ofOperands, bind_eq_ok, pure_eq_ok, Prod.mk.injEq] at h
    obtain ⟨_, hl, _, hr, rfl, rfl⟩ := h
    exact ⟨l, r, rest, rfl, Expr.ofNode_eval site env l hl, Expr.ofNode_eval site env r hr⟩

theorem Expr.ofNodes_eval (site : Site σ) (env : Env) :
    (ns : List Node) → {es : List Expr} → Expr.ofNodes ns = .ok es →
      Node.evalAll site env ns = Expr.evalAll site env es
  | [], _, h => by
    cases h
    rfl
  | n :: rest, _, h => by
    simp only [Expr.ofNodes, bind_eq_ok, pure_eq_ok] at h
    obtain ⟨e, he, es, hes, rfl⟩ := h
    simp only [Node.evalAll, Expr.evalAll, Expr.ofNode_eval site env n he,
      Expr.ofNodes_eval site env rest hes]

theorem Expr.ofPairs_eval (site : Site σ) (env : Env) :
    (ns : List Node) → {es : List Expr} → Expr.ofPairs ns = .ok es →
      Node.evalPairs site env ns = Expr.evalAll site env es
  | [], _, h | [_], _, h => by
    cases h
    rfl
  | key :: value :: rest, _, h => by
    by_cases hkey : key.tag = .ident
    · simp only [Expr.ofPairs, hkey, if_true, bind_eq_ok, pure_eq_ok] at h
      obtain ⟨k, rfl, v, hv, es, hes, rfl⟩ := h
      simp only [Node.evalPairs, Expr.evalAll, Expr.eval, hkey, if_true,
        Expr.ofNode_eval site env value hv, Expr.ofPairs_eval site env rest hes, bind_assoc,
        pure_bind]
    · simp only [Expr.ofPairs, hkey, if_false, bind_eq_ok, pure_eq_ok] at h
      obtain ⟨k, hk, v, hv, es, hes, rfl⟩ := h
      simp only [Node.evalPairs, Expr.evalAll, hkey, if_false, Expr.ofNode_eval site env key hk,
        Expr.ofNode_eval site env value hv, Expr.ofPairs_eval site env rest hes, bind_assoc,
        pure_bind]

end

mutual

/-- The statement that a node is read as does what the node does. -/
theorem Stmt.ofNode_part (site : Site σ) {inLoop : Bool} :
    (n : Node) → {s : Stmt} → Stmt.ofNode inLoop n = .ok s →
      ∀ env, n.part site env = s.part site env
  | ⟨tag, text?, children, line⟩, s, h, env => by
    cases tag
    case integer | double | string | yes | no | nothing | ident | dollarVar | array | map
        | loopCount | loopIndex | loopHasNext | arm => cases h
    case add | subtract | multiply | divide | modulo | concat | equals | notEquals | gt | ge | lt
        | le | range | member | andAnd | orOr | negation | call | assignment =>
      simp only [Stmt.ofNode, bind_eq_ok, pure_eq_ok] at h
      obtain ⟨e, he, rfl⟩ := h
      simp only [Node.part, Stmt.part, Expr.ofNode_eval site env _ he]
    case block =>
      simp only [Stmt.ofNode, bind_eq_ok, pure_eq_ok] at h
      obtain ⟨body, hbody, rfl⟩ := h
      exact Stmt.ofNodes_parts site children hbody env
    case literalText =>
      cases h
      rfl
    case output =>
      match children, h with
      | value :: _, h =>
        simp only [Stmt.ofNode, bind_eq_ok, pure_eq_ok] at h
        obtain ⟨e, he, rfl⟩ := h
        simp only [Node.part, Expr.ofNode_eval site env value he]
        split <;> rfl
    case choice =>
      match children, h with
      | test :: branches, h =>
        simp only [Stmt.ofNode, bind_eq_ok] at h
        obtain ⟨t, ht, h⟩ := h
        match branches, h with
        | [body], h =>
          simp only [bind_eq_ok, pure_eq_ok] at h
          obtain ⟨b, hb, rfl⟩ := h
          simp only [Node.part, Stmt.part, Expr.ofNode_eval site env test ht,
            Stmt.ofNode_part site body hb env]
        | yes :: no :: _, h =>
          simp only [bind_eq_ok, pure_eq_ok] at h
          obtain ⟨y, hy, n, hn, rfl⟩ := h
          simp only [Node.part, Stmt.part, Expr.ofNode_eval site env test ht,
            Stmt.ofNode_part site yes hy env, Stmt.ofNode_part site no hn env]
    case switch =>
      match children, h with
      | subject :: arms, h =>
        simp only [Stmt.ofNode, bind_eq_ok, pure_eq_ok] at h
        obtain ⟨x, hx, as, has, rfl⟩ := h
        simp only [Node.part, Stmt.part, Expr.ofNode_eval site env subject hx,
          Arm.ofNodes_parts site _ arms has env]
    case foreach =>
      match children, h with
      | var :: source :: rest, h =>
        simp only [Stmt.ofNode, bind_eq_ok] at h
        obtain ⟨x, hx, h⟩ := h
        match rest, h with
        | body :: _, h =>
          simp only [bind_eq_ok, pure_eq_ok] at h
          obtain ⟨b, hb, rfl⟩ := h
          simp only [Node.part, Stmt.part, Expr.ofNode_eval site env source hx,
            Stmt.ofNode_part site body hb]
    case loop =>
      match children, h with
      | test :: rest, h =>
        simp only [Stmt.ofNode, bind_eq_ok] at h
        obtain ⟨x, hx, h⟩ := h
        match rest, h with
        | body :: _, h =>
          simp only [bind_eq_ok, pure_eq_ok] at h
          obtain ⟨b, hb, rfl⟩ := h
          simp only [Node.part, Stmt.part, Expr.ofNode_eval site env test hx,
            Stmt.ofNode_part site body hb env]
    case last | next =>
      simp only [Stmt.ofNode] at h
      split at h <;> cases h
      rfl
    case inclusion =>
      match children, h with
      | [path], h =>
        simp only [Stmt.ofNode, bind_eq_ok, pure_eq_ok, List.isEmpty_nil, if_true] at h
        obtain ⟨x, hx, rfl⟩ := h
        simp only [Node.part, Stmt.part, Expr.ofNode_eval site env path hx]
      | path :: key :: bindings, h =>
        simp only [Stmt.ofNode, bind_eq_ok, List.isEmpty_cons, Bool.false_eq_true, if_false] at h
        obtain ⟨x, hx, h⟩ := h
        split at h
        · simp only [bind_eq_ok, pure_eq_ok] at h
          obtain ⟨xs, hxs, rfl⟩ := h
          simp only [Node.part, Stmt.part, Expr.ofNode_eval site env path hx,
            Expr.ofPairs_eval site env _ hxs]
        · cases h
    case wrapper =>
      match children, h with
      | path :: body :: _, h =>
        simp only [Stmt.ofNode, bind_eq_ok, pure_eq_ok] at h
        obtain ⟨b, hb, x, hx, rfl⟩ := h
        simp only [Node.part, Stmt.part, Expr.ofNode_eval site env path hx,
          Stmt.ofNode_part site body hb env]

theorem Stmt.ofNodes_parts (site : Site σ) {inLoop : Bool} :
    (ns : List Node) → {body : List Stmt} → Stmt.ofNodes inLoop ns = .ok body →
      ∀ env, Node.parts site ns env = Stmt.parts site body env
  | [], _, h, _ => by
    cases h
    rfl
  | n :: rest, _, h, env => by
    simp only [Stmt.ofNodes, bind_eq_ok, pure_eq_ok] at h
    obtain ⟨s, hs, ss, hss, rfl⟩ := h
    simp only [Node.parts, Stmt.parts, Stmt.ofNode_part site n hs env,
      Stmt.ofNodes_parts site rest hss env]

theorem Arm.ofNodes_parts (site : Site σ) {inLoop : Bool} (subject : Value) :
    (ns : List Node) → {arms : List Arm} → Arm.ofNodes inLoop ns = .ok arms →
      ∀ env, Node.armParts site subject ns env = Arm.parts site subject arms env
  | [], _, h, _ => by
    cases h
    rfl
  | ⟨tag, text?, parts, line⟩ :: rest, _, h, env => by
    by_cases htag : tag = .arm
    · match parts, h with
      | [value, body], h =>
        simp only [Arm.ofNodes, if_pos htag, bind_eq_ok, pure_eq_ok] at h
        obtain ⟨x, hx, b, hb, _, rfl, as, has, rfl⟩ := h
        simp only [Node.armParts, Arm.parts, Expr.ofNode_eval site env value hx,
          Stmt.ofNode_part site body hb env, Arm.ofNodes_parts site subject rest has env]
      | [body], h =>
        simp only [Arm.ofNodes, if_pos htag, bind_eq_ok, pure_eq_ok] at h
        obtain ⟨b, hb, _, rfl, as, has, rfl⟩ := h
        simp only [Node.armParts, Arm.parts, Stmt.ofNode_part site body hb env]
      | [], h | _ :: _ :: _ :: _, h =>
        simp only [Arm.ofNodes, if_pos htag, unsupported, bind_eq_ok] at h
        obtain ⟨_, h, _⟩ := h
        cases h
    · rw [Arm.ofNodes, if_neg htag] at h
      cases h

end

end Stencil
