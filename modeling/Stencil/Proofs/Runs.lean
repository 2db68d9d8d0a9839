import Stencil.Machine.Render
import Stencil.Proofs.Meaning

/-!
# Frames that perform acts

The steps of a frame are compared with an act, which knows nothing of programs. What the act does
to the world is compared with the world of the frame without its events, and the blames of the act
with the links of the frame's error.

* `Frame.exec_mono`: the outcome of a frame does not depend on the bound of its steps;
* `Leads`: one frame leads to another one;
* `Matches`: a frame ends with an error as an act does, or leads to a frame that fits its answer;
* `Performs`: a frame does what an act does, and is then as a condition says.
-/

namespace Stencil

variable {σ α β : Type}

/-! ### What can be seen of an outcome -/

/-- Is an entry of the record a step of the machine? -/
def Entry.isEvent : Entry → Bool
  | .event _ => true
  | _ => false

/-- The world without the steps of the machine. -/
def World.silent (w : World σ) : World σ :=
  { w with entries := w.entries.filter fun e => !e.isEvent }

namespace World

@[simp] theorem silent_note (w : World σ) (e : Event) : (w.note e).silent = w.silent := by
  simp [silent, note, record, Entry.isEvent]

@[simp] theorem silent_record_notice (w : World σ) (n : Warning) :
    (w.record (.notice n)).silent = w.silent.record (.notice n) := by
  simp [silent, record, Entry.isEvent]

@[simp] theorem silent_record_call (w : World σ) (name : String) (args : List Value) :
    (w.record (.call name args)).silent = w.silent.record (.call name args) := by
  simp [silent, record, Entry.isEvent]

@[simp] theorem silent_warn (w : World σ) (p : Program) (pc : Nat) (caution : Caution) :
    (w.warn p pc caution).silent =
      w.silent.record (.notice ⟨caution, p.source.name, p.lineAt pc⟩) := by
  simp [warn]

end World

/-- The place that a link blames. -/
def Link.blame (l : Link) : Blame := ⟨l.fault, l.program.source, l.line⟩

/-- The places that an error blames, the outermost first. -/
def RenderError.blames (e : RenderError) : List Blame := e.links.map Link.blame

/-- An outcome with nothing of the machine in it. -/
def Outcome.seen (out : Outcome σ) : Except (List Blame) String × World σ :=
  (out.1.mapError RenderError.blames, out.2.silent)

/-! ### The bound of the steps -/

namespace Frame

theorem exec_succ {ctx : Context σ} {n : Nat} {f : Frame} {w : World σ} {out : Outcome σ}
    (h : exec ctx n f w = some out) : exec ctx (n + 1) f w = some out := by
  induction n generalizing f w out with
  | zero => cases h
  | succ n ih =>
    rw [exec] at h ⊢
    cases hs : f.step ctx w with
    | next g v =>
      rw [hs] at h
      exact ih h
    | finish _ _ | fault _ _ _ _ =>
      rw [hs] at h
      exact h
    | render p kept g resume v =>
      -- The inner frame and the one behind it are bounded alike, so that `ih` is for both.
      simp only [hs] at h ⊢
      cases he : exec ctx n (.start p (g.depth + 1))
          (v.note (.enter p.source.name (g.depth + 1))) with
      | none =>
        rw [he] at h
        cases h
      | some inner =>
        rw [he] at h
        rw [ih he]
        obtain ⟨_ | output, v'⟩ := inner
        · exact h
        · exact ih h

theorem exec_mono {ctx : Context σ} {n m : Nat} (hnm : n ≤ m) {f : Frame} {w : World σ}
    {out : Outcome σ} (h : exec ctx n f w = some out) : exec ctx m f w = some out := by
  induction hnm with
  | refl => exact h
  | step _ ih => exact exec_succ ih

/-- A frame that does not end in `m` steps does not end in fewer. -/
theorem exec_eq_none {ctx : Context σ} {n m : Nat} (hnm : n ≤ m) {f : Frame} {w : World σ}
    (h : exec ctx m f w = none) : exec ctx n f w = none := by
  cases hn : exec ctx n f w with
  | none => rfl
  | some out => rw [exec_mono hnm hn] at h; cases h

/-- A frame has no more than one outcome. -/
theorem exec_unique {ctx : Context σ} {n m : Nat} {f : Frame} {w : World σ} {out out' : Outcome σ}
    (h : exec ctx n f w = some out) (h' : exec ctx m f w = some out') : out = out' := by
  rcases Nat.le_total n m with hnm | hmn
  · rw [exec_mono hnm h] at h'
    exact Option.some.inj h'
  · rw [exec_mono hmn h'] at h
    exact (Option.some.inj h).symm

end Frame

/-- The render of a program is that of its first frame. -/
theorem Program.exec_of_render {ctx : Context σ} {p : Program} {n : Nat} {w v : World σ}
    {result : Except RenderError String} (h : p.render ctx n w = some (result, v)) :
    ∃ u, Frame.exec ctx n (.start p 0) (w.note (.enter p.source.name 0)) = some (result, u) ∧
      v = u.note (.leave 0) := by
  unfold Program.render at h
  split at h
  · cases h
  · next hexec =>
    cases h
    exact ⟨_, hexec, rfl⟩

/-! ### One frame leads to another -/

/-- The frame `f` comes to the frame `g`: it ends as `g` does, and not if `g` does not. -/
structure Leads (ctx : Context σ) (f : Frame) (w : World σ) (g : Frame) (v : World σ) : Prop where
  ends : ∀ {n : Nat} {out : Outcome σ}, g.exec ctx n v = some out →
    ∃ m, f.exec ctx m w = some out
  goes : ∀ {n : Nat}, g.exec ctx n v = none → f.exec ctx n w = none

namespace Leads

variable {ctx : Context σ} {f g h : Frame} {u v w : World σ}

theorem refl (f : Frame) (w : World σ) : Leads ctx f w f w := ⟨fun h => ⟨_, h⟩, id⟩

theorem trans (hfg : Leads ctx f w g v) (hgh : Leads ctx g v h u) : Leads ctx f w h u where
  ends hn := by
    obtain ⟨m, hm⟩ := hgh.ends hn
    exact hfg.ends hm
  goes hn := hfg.goes (hgh.goes hn)

theorem step (hs : f.step ctx w = .next g v) : Leads ctx f w g v where
  ends {n} out hn := ⟨n + 1, by rw [Frame.exec, hs]; exact hn⟩
  goes {n} hn := by
    cases n with
    | zero => rfl
    | succ n =>
      rw [Frame.exec, hs]
      exact Frame.exec_eq_none (Nat.le_succ n) hn

end Leads

/-! ### Frames and acts -/

/-- The frame `f` turns out as an act has. If the act has a result, the frame comes to one that is
as `Q` says; if it has somebody to blame, so does the frame; and if it has come to no end, the frame
does not end in `n` steps. -/
def Matches (ctx : Context σ) (n : Nat) (r : Option (Except (List Blame) α × World σ)) (f : Frame)
    (w : World σ) (Q : α → Frame → Prop) : Prop :=
  match r with
  | none => f.exec ctx n w = none
  | some (.error blames, after) =>
    ∃ m out, f.exec ctx m w = some out ∧ out.seen = (.error blames, after)
  | some (.ok a, after) => ∃ g v, Leads ctx f w g v ∧ v.silent = after ∧ Q a g

/-- The frame `f` does what an act does. -/
def Performs (ctx : Context σ) (n : Nat) (x : Act σ α) (f : Frame) (w : World σ)
    (Q : α → Frame → Prop) : Prop :=
  Matches ctx n (x w.silent) f w Q

namespace Matches

variable {ctx : Context σ} {n m : Nat} {r : Option (Except (List Blame) α × World σ)}
variable {f g : Frame} {v w : World σ} {P Q : α → Frame → Prop}

theorem before (hfg : Leads ctx f w g v) (h : Matches ctx n r g v Q) : Matches ctx n r f w Q := by
  match r, h with
  | none, h => exact hfg.goes h
  | some (.error _, _), ⟨_, out, hm, hout⟩ =>
    obtain ⟨m, hm⟩ := hfg.ends hm
    exact ⟨m, out, hm, hout⟩
  | some (.ok _, _), ⟨g', v', hgg', hv', hQ⟩ => exact ⟨g', v', hfg.trans hgg', hv', hQ⟩

theorem mono (h : Matches ctx n r f w P) (hPQ : ∀ a g, P a g → Q a g) : Matches ctx n r f w Q := by
  match r, h with
  | none, h => exact h
  | some (.error _, _), h => exact h
  | some (.ok a, _), ⟨g, v, hfg, hv, hP⟩ => exact ⟨g, v, hfg, hv, hPQ a g hP⟩

theorem le (h : Matches ctx n r f w Q) (hmn : m ≤ n) : Matches ctx m r f w Q := by
  match r, h with
  | none, h => exact Frame.exec_eq_none hmn h
  | some (.error _, _), h => exact h
  | some (.ok _, _), h => exact h

/-- A step before counts. -/
theorem before_step (hs : f.step ctx w = .next g v) (h : Matches ctx n r g v Q) :
    Matches ctx (n + 1) r f w Q := by
  have h' := h.before (.step hs)
  match r, h, h' with
  | none, h, _ =>
    show f.exec ctx (n + 1) w = none
    rw [Frame.exec, hs]
    exact h
  | some (.error _, _), _, h' => exact h'
  | some (.ok _, _), _, h' => exact h'

end Matches

namespace Performs

variable {ctx : Context σ} {n m : Nat} {x : Act σ α} {f g : Frame} {v w : World σ}
variable {P Q : α → Frame → Prop}

theorem pure {a : α} (h : Q a f) : Performs ctx n (pure a : Act σ α) f w Q :=
  ⟨f, w, .refl f w, rfl, h⟩

theorem bind {k : α → Act σ β} {R : β → Frame → Prop} (hx : Performs ctx n x f w P)
    (hk : ∀ a g v, P a g → Performs ctx n (k a) g v R) : Performs ctx n (x >>= k) f w R := by
  unfold Performs at hx ⊢
  cases hxw : x w.silent with
  | none =>
    rw [hxw] at hx
    rw [Act.bind_of_none hxw]
    exact hx
  | some r =>
    rw [hxw] at hx
    obtain ⟨blames | a, after⟩ := r
    · rw [Act.bind_of_error hxw]
      exact hx
    · obtain ⟨g, v, hfg, rfl, hP⟩ := hx
      rw [Act.bind_of_ok hxw]
      exact (hk a g v hP).before hfg

theorem mono (h : Performs ctx n x f w P) (hPQ : ∀ a g, P a g → Q a g) :
    Performs ctx n x f w Q := Matches.mono h hPQ

theorem le (h : Performs ctx n x f w Q) (hmn : m ≤ n) : Performs ctx m x f w Q := Matches.le h hmn

/-- Steps may follow that leave the result as it is. -/
theorem andThen (h : Performs ctx n x f w P)
    (hQ : ∀ a g v, P a g → Performs ctx n (Pure.pure a : Act σ α) g v Q) :
    Performs ctx n x f w Q := by
  rw [← bind_pure x]
  exact h.bind hQ

/-- A step that leaves no trace may come before, and counts. -/
theorem step_succ (hs : f.step ctx w = .next g v) (hv : v.silent = w.silent)
    (h : Performs ctx n x g v Q) : Performs ctx (n + 1) x f w Q := by
  unfold Performs at h ⊢
  rw [hv] at h
  exact h.before_step hs

theorem step (hs : f.step ctx w = .next g v) (hv : v.silent = w.silent)
    (h : Performs ctx n x g v Q) : Performs ctx n x f w Q := (step_succ hs hv h).le (Nat.le_succ n)

end Performs

end Stencil
