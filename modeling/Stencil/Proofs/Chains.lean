import Mathlib.Data.List.Chain
import Stencil.Proofs.Depth
import Stencil.Renderer

/-!
# What the links of an error say

When a fault stops a render, all templates that are being rendered stand still: the innermost one
at the step that raised the fault, and every other one at the instruction that asked for the next
one. The links of the error say exactly that.

* `Frame.Stops`: the frames that stand still;
* `Frame.exec_stops`: the links of every error are those of such frames;
* `Frame.Stops.depth_getLast`: how deep the innermost of them is nested;
* `Context.Fails`: the errors of renders, however these are started;
* `Context.Fails.links_faithful`: what the links of an error say.
-/

namespace Stencil

variable {σ : Type}

theorem RenderError.root_mem_links (e : RenderError) : e.root ∈ e.links := by
  unfold root links
  cases h : e.causes.getLast? with
  | none => exact List.mem_cons_self
  | some l => exact List.mem_cons_of_mem _ (List.mem_of_getLast? h)

/-! ### Frames that stand still -/

/-- A frame and the world around it. -/
abbrev Stop (σ : Type) := Frame × World σ

/-- The link that tells of a frame that stands still because of a fault. -/
def Stop.link (fault : Fault) (s : Stop σ) : Link := ⟨fault, s.1.program, s.1.pc⟩

/-- The frames that stand still when a fault stops what the frame `f` has begun, the outermost
first. -/
structure Frame.Stops (ctx : Context σ) (f : Frame) (w : World σ) (fault : Fault)
    (stops : List (Stop σ)) : Prop where
  /-- All of them are on the way of the frame. -/
  reaches : ∀ s ∈ stops, f.Reaches ctx w s.1 s.2
  /-- The first one is the frame itself, some steps later. -/
  first : ∃ s ∈ stops.head?, s.1.program = f.program ∧ s.1.depth = f.depth
  /-- Each one but the last stands at an instruction that renders another template, and the next one
  is a frame of the program that the instruction has loaded. -/
  inside : stops.IsChain fun s t =>
    s.1.AsksFor ctx s.2 t.1.program ∧ t.1.depth = s.1.depth + 1
  /-- The last one stands where the fault is raised. -/
  last : ∃ s ∈ stops.getLast?, ∃ u, s.1.step ctx s.2 = .fault fault s.1.program s.1.pc u

namespace Frame

variable {ctx : Context σ} {f f' g : Frame} {u v w : World σ} {q : Program} {kept : Option Vars}
  {resume : Resume} {fault : Fault} {stops : List (Stop σ)}

theorem Stops.raise {p : Program} {pc : Nat} (hs : f.step ctx w = .fault fault p pc v) :
    f.Stops ctx w fault [(f, w)] := by
  cases Moves.of_step hs with
  | fault _ _ =>
    refine ⟨?_, ⟨_, rfl, rfl, rfl⟩, .singleton _, ⟨_, rfl, v, hs⟩⟩
    intro s hmem
    rw [List.mem_singleton.1 hmem]
    exact .refl f w

/-- Frames that stand still in what follows do so in the whole. -/
theorem Stops.before (h : g.Stops ctx v fault stops) (hprogram : g.program = f.program)
    (hdepth : g.depth = f.depth)
    (hreaches : ∀ {g' v'}, g.Reaches ctx v g' v' → f.Reaches ctx w g' v') :
    f.Stops ctx w fault stops := by
  obtain ⟨s, hs, hsprogram, hsdepth⟩ := h.first
  exact ⟨fun s hs => hreaches (h.reaches s hs),
    ⟨s, hs, hsprogram.trans hprogram, hsdepth.trans hdepth⟩, h.inside, h.last⟩

/-- A frame stands still while the template that it has asked for does. -/
theorem Stops.enter (hs : f.step ctx w = .render q kept f' resume v)
    (h : (Frame.start q (f'.depth + 1)).Stops ctx (v.note (.enter q.source.name (f'.depth + 1)))
      fault stops) : f.Stops ctx w fault ((f, w) :: stops) := by
  cases Moves.of_step hs with
  | render asks _ _ =>
    obtain ⟨s, hfirst, hprogram, hdepth⟩ := h.first
    obtain ⟨t, hlast, hraise⟩ := h.last
    refine ⟨List.forall_mem_cons.2 ⟨.refl f w, fun s hmem => .enter hs (h.reaches s hmem)⟩,
      ⟨_, rfl, rfl, rfl⟩, List.isChain_cons.2 ⟨?_, h.inside⟩, t, ?_, hraise⟩
    · intro t ht
      obtain rfl := Option.mem_unique hfirst ht
      exact ⟨hprogram ▸ asks, hdepth⟩
    · exact List.mem_getLast?_cons hlast

/-- The frames that stand still are nested one in another. -/
theorem Stops.depth_getLast (h : f.Stops ctx w fault stops) {t : Stop σ}
    (ht : t ∈ stops.getLast?) : t.1.depth + 1 = f.depth + stops.length := by
  obtain ⟨s, hs, -, hdepth⟩ := h.first
  have hinside := h.inside
  -- The last frame stays the same while the first ones are taken away, so `f` has to vary.
  clear h
  induction stops generalizing f s with
  | nil => cases ht
  | cons a stops ih =>
    obtain rfl : a = s := Option.some.inj hs
    cases stops with
    | nil =>
      obtain rfl : a = t := Option.some.inj ht
      rw [hdepth, List.length_singleton]
    | cons b stops =>
      obtain ⟨⟨-, hb⟩, hinside⟩ := List.isChain_cons_cons.1 hinside
      have hlast := ih (f := b.1) ht b rfl rfl hinside
      rw [List.length_cons, hlast]
      omega

/-- The links of an error are those of the frames that stand still. -/
theorem exec_stops {fuel : Nat} {e : RenderError} (h : f.exec ctx fuel w = some (.error e, v)) :
    ∃ fault stops, f.Stops ctx w fault stops ∧ e.links = stops.map (Stop.link fault) := by
  replace h := ComesTo.of_exec h
  generalize hout : ((.error e, v) : Outcome σ) = out at h
  induction h generalizing e v with
  | next hs _ ih =>
    obtain ⟨fault, stops, hstops, hlinks⟩ := ih hout
    cases Moves.of_step hs with
    | next hprogram hdepth _ =>
      exact ⟨fault, stops, hstops.before hprogram hdepth fun hg => .next hs hg, hlinks⟩
  | finish _ => cases hout
  | @fault _ f _ w fault _ _ hs =>
    cases hout
    cases Moves.of_step hs with
    | fault _ _ => exact ⟨fault, [(f, w)], .raise hs, rfl⟩
  | @failure _ f _ _ w _ _ _ _ e' hs _ ih =>
    cases hout
    obtain ⟨fault, stops, hstops, hlinks⟩ := ih rfl
    -- The outer link has the fault of the first inner one, and all inner ones have the same.
    have hhead : e'.head.fault = fault := by
      have hmem : e'.head ∈ stops.map (Stop.link fault) := hlinks ▸ List.mem_cons_self
      obtain ⟨s, -, hlink⟩ := List.mem_map.1 hmem
      exact hlink ▸ rfl
    cases Moves.of_step hs with
    | render _ _ _ =>
      refine ⟨fault, (f, w) :: stops, hstops.enter hs, ?_⟩
      show (⟨e'.head.fault, f.program, f.pc⟩ : Link) :: e'.links = _
      rw [hlinks, hhead]
      rfl
  | success hs hinner _ _ ih =>
    obtain ⟨fault, stops, hstops, hlinks⟩ := ih hout
    cases Moves.of_step hs with
    | render _ _ _ =>
      exact ⟨fault, stops, hstops.before (resume_continues _ _ _ _).program
        (resume_depth _ _ _ _) fun hg => .leave hs hinner.exec hg, hlinks⟩

end Frame

/-! ### Errors of renders -/

namespace Context

variable {ctx : Context σ} {p : Program} {w : World σ} {e : RenderError}

/-- A render of the program in the world ends with the error. It may have been asked for by the
program itself, by a tree, or by the name of a template. -/
inductive Fails (ctx : Context σ) : Program → World σ → RenderError → Prop
  | program {fuel : Nat} {p : Program} {w v : World σ} {e : RenderError} :
    p.render ctx fuel w = some (.error e, v) → Fails ctx p w e
  | tree {fuel : Nat} {tree : Node} {p : Program} {w v : World σ} {e : RenderError} :
    Program.compile tree .anonymous = .ok p →
    ctx.renderTree fuel tree w = some (.error (.render e), v) → Fails ctx p w e
  | named {fuel : Nat} {name : String} {p : Program} {w v : World σ} {loader : σ}
    {e : RenderError} : ctx.load name w.loader = (.ok p, loader) →
    ctx.renderNamed fuel name w = some (.error (.render e), v) → Fails ctx p { w with loader } e

theorem render_of_renderCopy {fuel : Nat} {v : World σ}
    (h : ctx.renderCopy fuel p w = some (.error (.render e), v)) :
    ∃ u, p.render ctx fuel w = some (.error e, u) := by
  obtain ⟨⟨result, u⟩, hrender, hresult⟩ := Option.bind_eq_some_iff.1 h
  cases result with
  | ok output => cases hresult
  | error e' =>
    cases hresult
    exact ⟨u, hrender⟩

/-- However it was asked for, a render is one of a program. -/
theorem Fails.exists_render (h : ctx.Fails p w e) :
    ∃ fuel v, p.render ctx fuel w = some (.error e, v) := by
  cases h with
  | program h => exact ⟨_, _, h⟩
  | tree hcompile h =>
    rw [renderTree, hcompile] at h
    exact ⟨_, render_of_renderCopy h⟩
  | named hload h =>
    rw [renderNamed, hload] at h
    exact ⟨_, render_of_renderCopy h⟩

/-- The links of an error are faithful. They tell of the frames that stand still when the error
arises: each of them but the last at an instruction that renders another template, the program of
the next one being what that instruction has loaded, and the last one where the fault is raised. All
of them have the kind and the message of that fault. There are no more of them than the limit of
nesting allows, and exactly as many if the limit is what the error is about. -/
theorem Fails.links_faithful (h : ctx.Fails p w e) :
    (∃ stops, (Frame.start p 0).Stops ctx (w.note (.enter p.source.name 0)) e.root.fault stops ∧
      e.links = stops.map (Stop.link e.root.fault)) ∧
    (∀ l ∈ e.links, l.fault.kind = e.root.fault.kind ∧ l.fault.message = e.root.fault.message) ∧
    ∀ most, ctx.limits.depth = some most → e.links.length ≤ most + 1 ∧
      (e.root.fault.kind = .limit → e.links.length = most + 1) := by
  obtain ⟨fuel, v, hrender⟩ := h.exists_render
  obtain ⟨u, hexec, -⟩ := Program.exec_of_render hrender
  obtain ⟨fault, stops, hstops, hlinks⟩ := Frame.exec_stops hexec
  have hfault : ∀ l ∈ e.links, l.fault = fault := by
    rw [hlinks, List.forall_mem_map]
    exact fun s _ => rfl
  obtain rfl : e.root.fault = fault := hfault e.root e.root_mem_links
  refine ⟨⟨stops, hstops, hlinks⟩, fun l hl => by rw [hfault l hl]; exact ⟨rfl, rfl⟩, ?_⟩
  intro most hmost
  obtain ⟨t, ht, u, hraise⟩ := hstops.last
  have hlength : t.1.depth + 1 = stops.length := by
    rw [hstops.depth_getLast ht]
    exact Nat.zero_add _
  have hdepth : t.1.depth ≤ most :=
    (hstops.reaches t (List.mem_of_getLast? ht)).depth_le hmost (Nat.zero_le most)
  rw [hlinks, List.length_map, ← hlength]
  refine ⟨Nat.succ_le_succ hdepth, fun hkind => ?_⟩
  cases Frame.Moves.of_step hraise with
  | fault _ hlimit =>
    obtain ⟨most', hmost', hle, -⟩ := Frame.tooDeep?_eq_some (hlimit hkind)
    obtain rfl : most = most' := Option.some.inj (hmost.symm.trans hmost')
    rw [Nat.le_antisymm hdepth hle]

/-- A template that includes itself is stopped by a limit of two, three templates being rendered. -/
theorem Fails.links_faithful_including :
    ∃ e, ((ofProgram .including).withDepth (some 2)).Fails .including { loader := () } e ∧
      e.root.fault = .limit 2 ∧ e.links.length = 3 ∧
      ∀ l ∈ e.links, l.fault.kind = .limit := by
  have hrender : Program.including.render ((ofProgram .including).withDepth (some 2)) 10
      { loader := () } = some (.error ⟨⟨.limit 2, .including, 1⟩,
        [⟨.limit 2, .including, 1⟩, ⟨.limit 2, .including, 1⟩]⟩, _) := rfl
  have hfails := Fails.program hrender
  obtain ⟨-, hsame, hlength⟩ := hfails.links_faithful
  exact ⟨_, hfails, rfl, (hlength 2 rfl).2 rfl, fun l hl => (hsame l hl).1⟩

end Context

end Stencil
