import Stencil.Proofs.Conduct
import Stencil.Proofs.StmtCode

/-!
# Compiled templates render as their trees do

* `Library.render_agrees`: the frame of a compiled program ends as the render of its tree does;
* `Program.render_iff`: a compiled program ends with what the render of its tree ends with.
-/

namespace Stencil

variable {σ α : Type}

/-! ### Frames that come to their end -/

/-- What an obedient act has, the frame has that performs it. -/
theorem Performs.obeys {ctx : Context σ} {n : Nat} {x : Act σ α} {f : Frame} {w : World σ}
    {P : α → Frame → Prop} {Q : α → Prop} (hx : Performs ctx n x f w P)
    (ho : x.Obeys Policy.any Q) : Performs ctx n x f w fun a g => P a g ∧ Q a := by
  have h := ho w.silent fun _ _ => trivial
  unfold Performs at hx ⊢
  rcases hxw : x w.silent with _ | ⟨blames | a, after⟩ <;> rw [hxw] at hx h
  · exact hx
  · exact hx
  · obtain ⟨g, v, hfg, hv, hP⟩ := hx
    exact ⟨g, v, hfg, hv, hP, h.2⟩

/-- A frame that performs an act and then finishes agrees with the act. -/
theorem Performs.agrees {ctx : Context σ} {n : Nat} {x : Act σ String} {f : Frame} {w : World σ}
    {Q : String → Frame → Prop} (hx : Performs ctx n x f w Q)
    (hfinish : ∀ output g v, Q output g → ∃ e, g.step ctx v = .finish output (v.note e)) :
    f.Agrees ctx n x w := by
  unfold Performs at hx
  unfold Frame.Agrees
  rcases hxw : x w.silent with _ | ⟨blames | output, after⟩ <;> rw [hxw] at hx
  · exact hx
  · exact hx
  · obtain ⟨g, v, hfg, rfl, hQ⟩ := hx
    obtain ⟨e, he⟩ := hfinish output g v hQ
    have hend : g.exec ctx 1 v = some (.ok output, v.note e) := by rw [Frame.exec, he]
    obtain ⟨m, hm⟩ := hfg.ends hend
    exact ⟨m, _, hm, by rw [Outcome.seen, World.silent_note]; rfl⟩

/-! ### Templates -/

theorem Program.HasAll.of_hint {p : Program} {hint : Nat} {pc : Nat} {ds : List Draft}
    (h : Program.HasAll { p with outputHint := hint } pc ds) : p.HasAll pc ds := by
  induction ds generalizing pc with
  | nil => trivial
  | cons d ds ih => exact ⟨h.1, ih h.2⟩

theorem Program.IsCompiledFrom.exists_stmt {p : Program} {t : Template} (h : p.IsCompiledFrom t) :
    ∃ s, Stmt.ofNode false t.tree = .ok s ∧ s.IsProgram t.source p := by
  obtain ⟨s, hs, hp⟩ := Program.compile_eq_ok h
  have hp := Stmt.program_spec hp
  exact ⟨s, hs, hp.code.of_hint, hp.size, hp.lines, hp.source, hp.registers, hp.limit⟩

theorem Program.isCompiledFrom {tree : Node} {source : Source} {p : Program}
    (h : Program.compile tree source = .ok p) : p.IsCompiledFrom ⟨tree, source⟩ := by
  obtain ⟨s, -, hp⟩ := Program.compile_eq_ok h
  have hint : ({ p with outputHint := 0 } : Program) = p := by
    simp only [Stmt.program, bind, Except.bind] at hp
    split at hp
    · cases hp
    · split at hp <;> cases hp
      rfl
  rw [Program.IsCompiledFrom, hint]
  exact h

theorem Program.IsCompiledFrom.behaves {p : Program} {t : Template} (h : p.IsCompiledFrom t)
    {P : String → Prop} (ht : t.tree.HasTexts P) : t.Behaves P := by
  obtain ⟨s, hs, -⟩ := h.exists_stmt
  exact ⟨s, hs, Stmt.ofNode_behaves t.tree ht hs⟩

theorem Library.Serves.behaves {library : Library σ} {ctx : Context σ} (h : library.Serves ctx)
    {name : String} {st st' : σ} {t : Template} (hl : library name st = (.ok t, st')) :
    t.Behaves Policy.any.text := by
  have hserves := h name st
  rw [hl] at hserves
  obtain ⟨p, -, hp⟩ := hserves
  exact hp.behaves t.tree.hasTexts_any

theorem Frame.step_finish (ctx : Context σ) {f : Frame} {line : UInt32}
    (hd : f.program.Has f.pc ⟨.finish, .none, .none, line⟩) (w : World σ) :
    ∃ e, f.step ctx w = .finish f.output (w.note e) := by
  obtain ⟨x, y, hi, -⟩ := hd
  exact ⟨_, Frame.step_of_ok (a := .finish) hi rfl⟩

/-- The frame of a compiled program ends as the render of its tree does. -/
theorem Library.render_agrees {ctx : Context σ} {library : Library σ} (hserves : library.Serves ctx)
    (n : Nat) {t : Template} {p : Program} (hp : p.IsCompiledFrom t) (depth : Nat) (w : World σ) :
    (Frame.start p depth).Agrees ctx n (library.render ctx n t depth) w := by
  -- The bound counts nested templates, which are what the hypothesis is about.
  induction n generalizing t p depth w with
  | zero => exact rfl
  | succ n ih =>
    let site : Site σ := ⟨ctx, library, library.render ctx n, t.source, depth, n + 1⟩
    have hready : site.Ready (n + 1) :=
      ⟨Nat.le_refl _, hserves, fun t p depth w hp => ih hp depth w⟩
    obtain ⟨s, hs, hprogram⟩ := hp.exists_stmt
    have hcode := hprogram.code
    simp only [Stmt.drafts, Program.hasAll_append, Program.hasAll_cons, Stmt.length_code,
      Nat.zero_add] at hcode
    obtain ⟨hcode, hend, -⟩ := hcode
    have hsize : (Frame.start p depth).registers.size = s.registers :=
      Array.size_replicate.trans hprogram.registers
    have hroom : Room {} [] 0 0 0 0 s.registers (Frame.start p depth).registers :=
      ⟨.nil, Nat.le_refl 0, Nat.le_refl 0, by omega, hsize ▸ hprogram.limit⟩
    have hbody : Performs ctx (n + 1) (s.part site {} 0) (Frame.start p depth) w _ :=
      Stmt.correct hready s (f := Frame.start p depth) ⟨hprogram.source, rfl, rfl⟩ hroom hcode
    -- Outside all loops there is nothing to leave, so that the text of the template ends here.
    have hconduct : site.Supplies Policy.any := ⟨hserves.behaves, fun t depth ht =>
      library.render_obeys (Policy.any_suits ctx) hserves.behaves n ht depth⟩
    have hobeys : (s.part site {} 0).Obeys Policy.any (Policy.any.passage false) :=
      Stmt.part_obeys (Policy.any_suits ctx) hconduct s
        (Stmt.ofNode_behaves t.tree t.tree.hasTexts_any hs) Policy.table_nil 0
    show (Frame.start p depth).Agrees ctx (n + 1) (do return (← t.tree.part site {} 0).text) w
    rw [Stmt.ofNode_part site t.tree hs]
    refine (Performs.bind (hbody.obeys hobeys) (R := fun output g => ∃ registers,
      g = ((Frame.start p depth).write output).moved s.size registers) ?_).agrees ?_
    · rintro ⟨text, flow⟩ _ v ⟨⟨registers, rfl, -⟩, -, hflow⟩
      obtain rfl : flow = .on := hflow rfl
      exact .pure ⟨registers, by rw [Nat.zero_add]⟩
    · rintro output _ v ⟨registers, rfl⟩
      obtain ⟨e, he⟩ := Frame.step_finish ctx
        (f := ((Frame.start p depth).write output).moved s.size registers) hend v
      refine ⟨e, he.trans ?_⟩
      show Step.finish ("" ++ output) _ = _
      rw [String.empty_append]

section Programs

variable {ctx : Context σ} {library : Library σ} {tree : Node} {source : Source} {p : Program}
variable {fuel : Nat} {w : World σ}

/-- What can be seen of the outcome of a compiled program is the outcome of its tree. -/
theorem Program.render_seen (hserves : library.Serves ctx)
    (hp : Program.compile tree source = .ok p) {out : Outcome σ}
    (h : p.render ctx fuel w = some out) :
    library.render ctx fuel ⟨tree, source⟩ 0 w.silent = some out.seen := by
  have hagrees := library.render_agrees hserves fuel (Program.isCompiledFrom hp) 0
    (w.note (.enter p.source.name 0))
  unfold Frame.Agrees at hagrees
  rw [World.silent_note] at hagrees
  unfold Program.render at h
  split at h
  · cases h
  · next result after hexec =>
    cases h
    split at hagrees
    · rw [hagrees] at hexec
      cases hexec
    · next r hr =>
      obtain ⟨m, out, hm, rfl⟩ := hagrees
      rw [hr, Frame.exec_unique hm hexec, Outcome.seen, Outcome.seen, World.silent_note]

/-- A compiled program ends if its tree does. -/
theorem Program.render_ends (hserves : library.Serves ctx)
    (hp : Program.compile tree source = .ok p) {r : Except (List Blame) String × World σ}
    (h : library.render ctx fuel ⟨tree, source⟩ 0 w.silent = some r) :
    ∃ m out, p.render ctx m w = some out ∧ out.seen = r := by
  have hagrees := library.render_agrees hserves fuel (Program.isCompiledFrom hp) 0
    (w.note (.enter p.source.name 0))
  unfold Frame.Agrees at hagrees
  rw [World.silent_note, h] at hagrees
  obtain ⟨m, ⟨result, after⟩, hm, rfl⟩ := hagrees
  refine ⟨m, (result, after.note (.leave 0)), ?_, ?_⟩
  · rw [Program.render, hm]
  · rw [Outcome.seen, World.silent_note]
    rfl

/-- A compiled program ends when the render of its tree does, with the same output or the same
places to blame, and leaves the same world behind but for the steps of the machine. -/
theorem Program.render_iff (hserves : library.Serves ctx)
    (hp : Program.compile tree source = .ok p) (w : World σ)
    (r : Except (List Blame) String × World σ) :
    (∃ fuel out, p.render ctx fuel w = some out ∧ out.seen = r) ↔
      ∃ fuel, library.render ctx fuel ⟨tree, source⟩ 0 w.silent = some r := by
  constructor
  · rintro ⟨fuel, out, h, rfl⟩
    exact ⟨fuel, Program.render_seen hserves hp h⟩
  · rintro ⟨fuel, h⟩
    exact Program.render_ends hserves hp h

end Programs

/-! ### A page -/

/-- The context that finds one template under all names. -/
def Context.ofTemplate (t : Template) : Context Unit where
  load name _ :=
    match Program.compile t.tree t.source with
    | .ok p => (.ok p, ())
    | .error e => (.error (.compile name e), ())

/-- The library that has one template under all names. -/
def Library.ofTemplate (t : Template) : Library Unit := fun _ _ => (.ok t, ())

theorem Library.ofTemplate_serves {t : Template}
    (h : (Program.compile t.tree t.source).isOk = true) :
    (Library.ofTemplate t).Serves (Context.ofTemplate t) := by
  intro name st
  cases hp : Program.compile t.tree t.source with
  | ok p =>
    refine ⟨p, ?_, Program.isCompiledFrom hp⟩
    simp only [Context.ofTemplate, hp]
  | error e =>
    rw [hp] at h
    cases h

/-- A greeting, which names somebody. -/
def Template.greeting : Template :=
  ⟨.template [.rawText "Hello, ", .expression (.ident "name")], .anonymous⟩

/-- A page with a greeting. -/
def Node.page : Node :=
  .template [.expression (.set "name" (.string "Ada")), .inclusion (.string "greeting")]

theorem Program.render_page :
    ∃ p, Program.compile .page .anonymous = .ok p ∧ ∃ fuel out,
      p.render (.ofTemplate .greeting) fuel { loader := () } = some out ∧
        out.seen = (.ok "Hello, Ada", { vars := [("name", .str "Ada")], loader := () }) := by
  have hok : (Program.compile .page .anonymous).isOk := by decide +kernel
  have hserves := Library.ofTemplate_serves (t := .greeting) (by decide +kernel)
  match h : Program.compile .page .anonymous with
  | .ok p => exact ⟨p, rfl, (Program.render_iff hserves h _ _).2 ⟨2, rfl⟩⟩
  | .error e =>
    rw [h] at hok
    cases hok

end Stencil
