import Stencil.Proofs.Depth
import Stencil.Proofs.Summaries
import Stencil.Proofs.Ways

/-!
# How the steps of a render are bracketed

The record of a render has the steps of each template between entering and leaving it, and those of
a template inside it directly behind the instruction that asked for it. Between these brackets, the
loops of the template are counted: every loop that is entered or left says how many there are, and
so does every instruction.

* `Stretch`: the steps of a template from one moment to a later one;
* `IsVisit`: the steps of a template from entering it to leaving it;
* `Account`: entries whose steps are a stretch and whose warnings are those of the steps;
* `Frame.perform_adds`, `Frame.step_tells`: what an action and a step put on record;
* `Frame.exec_adds`: what a frame puts on record;
* `Program.render_isVisit`: what a render puts on record.
-/

namespace Stencil

variable {σ : Type}

/-! ### Steps in brackets -/

/-- The steps of a template that is nested in `depth` others, from a moment when it is in `loops`
loops to one when it is in `loops'`. -/
inductive Stretch : (depth loops : Nat) → List Event → (loops' : Nat) → Prop
  | nil (depth loops : Nat) : Stretch depth loops [] loops
  | instruction {depth loops loops' : Nat} {events : List Event} (pc : Nat) (op : Opcode) :
    Stretch depth loops events loops' →
    Stretch depth loops (.instruction pc op loops :: events) loops'
  /-- A template inside this one follows on the instruction that asks for it. It is in no loop when
  it is entered, and may be left in loops of its own. -/
  | visit {depth loops loops' left : Nat} {inner events : List Event} (pc : Nat) {op : Opcode}
    (name : String) : op ∈ [Opcode.inclusion, .inclusionWith, .wrap] →
    Stretch (depth + 1) 0 inner left → Stretch depth loops events loops' →
    Stretch depth loops (.instruction pc op loops :: .enter name (depth + 1) ::
      (inner ++ .leave (depth + 1) :: events)) loops'
  | push {depth loops loops' : Nat} {events : List Event} :
    Stretch depth (loops + 1) events loops' →
    Stretch depth loops (.loopPush (loops + 1) :: events) loops'
  | pop {depth loops loops' : Nat} {events : List Event} :
    Stretch depth loops events loops' →
    Stretch depth (loops + 1) (.loopPop (loops + 1) :: events) loops'
  | warning {depth loops loops' : Nat} {events : List Event} (caution : Caution) :
    Stretch depth loops events loops' →
    Stretch depth loops (.warning caution :: events) loops'

/-- The steps of a template from entering it to leaving it. -/
def IsVisit (name : String) (depth : Nat) (events : List Event) : Prop :=
  ∃ inner left, Stretch depth 0 inner left ∧
    events = .enter name depth :: (inner ++ [.leave depth])

theorem Stretch.append {depth loops loops' loops'' : Nat} {events events' : List Event}
    (h : Stretch depth loops events loops') (h' : Stretch depth loops' events' loops'') :
    Stretch depth loops (events ++ events') loops'' := by
  induction h with
  | nil => exact h'
  | instruction pc op _ ih => exact .instruction pc op (ih h')
  | visit pc name hop hinner _ _ ih =>
    have hvisit := Stretch.visit pc name hop hinner (ih h')
    simpa using hvisit
  | push _ ih => exact .push (ih h')
  | pop _ ih => exact .pop (ih h')
  | warning caution _ ih => exact .warning caution (ih h')

/-! ### Records -/

/-- Entries whose steps are a stretch, and whose warnings are those that the steps tell of. -/
structure Account (depth loops : Nat) (entries : List Entry) (loops' : Nat) : Prop where
  events : Stretch depth loops (entries.filterMap Entry.event?) loops'
  warnings : (entries.filterMap Entry.event?).filterMap Event.caution? =
    (entries.filterMap Entry.notice?).map Warning.caution

namespace Account

variable {depth loops loops' loops'' : Nat} {entries entries' : List Entry}

theorem nil (depth loops : Nat) : Account depth loops [] loops := ⟨.nil _ _, rfl⟩

theorem append (h : Account depth loops entries loops')
    (h' : Account depth loops' entries' loops'') :
    Account depth loops (entries ++ entries') loops'' where
  events := by
    rw [List.filterMap_append]
    exact h.events.append h'.events
  warnings := by
    simp only [List.filterMap_append, List.map_append, h.warnings, h'.warnings]

/-- The two entries of a warning: it is given, and then seen. -/
theorem warn (warning : Warning) :
    Account depth loops [.notice warning, .event (.warning warning.caution)] loops :=
  ⟨.warning _ (.nil _ _), rfl⟩

theorem instruction (pc : Nat) (op : Opcode) :
    Account depth loops [.event (.instruction pc op loops)] loops :=
  ⟨.instruction pc op (.nil _ _), rfl⟩

theorem push : Account depth loops [.event (.loopPush (loops + 1))] (loops + 1) :=
  ⟨.push (.nil _ _), rfl⟩

theorem pop : Account depth (loops + 1) [.event (.loopPop (loops + 1))] loops :=
  ⟨.pop (.nil _ _), rfl⟩

theorem call (name : String) (args : List Value) :
    Account depth loops [.call name args] loops := ⟨.nil _ _, rfl⟩

/-- An instruction and the template that it asks for. -/
theorem visit (pc : Nat) {op : Opcode} (name : String)
    (hop : op ∈ [Opcode.inclusion, .inclusionWith, .wrap])
    (h : Account (depth + 1) 0 entries loops') :
    Account depth loops (.event (.instruction pc op loops) :: .event (.enter name (depth + 1)) ::
      (entries ++ [.event (.leave (depth + 1))])) loops where
  events := by
    have hvisit := Stretch.visit pc name hop h.events (.nil depth loops)
    simpa [Entry.event?] using hvisit
  warnings := by
    simpa [List.filterMap_cons, Entry.event?, Entry.notice?, Event.caution?] using h.warnings

end Account

namespace World

variable {u v w : World σ} {entries entries' : List Entry}

/-- The record has grown by some entries. -/
def Grows (w v : World σ) (entries : List Entry) : Prop :=
  v.entries.toList = w.entries.toList ++ entries

theorem Grows.refl (w : World σ) : w.Grows w [] := (List.append_nil _).symm

theorem Grows.trans (h : w.Grows v entries) (h' : v.Grows u entries') :
    w.Grows u (entries ++ entries') := by
  unfold Grows at *
  rw [h', h, List.append_assoc]

theorem grows_record (w : World σ) (e : Entry) : w.Grows (w.record e) [e] := Array.toList_push

theorem grows_note (w : World σ) (e : Event) : w.Grows (w.note e) [.event e] := grows_record w _

theorem grows_outer (w : World σ) (kept : Option Vars) (depth : Nat) :
    w.Grows (w.outer kept depth) [.event (.leave depth)] := by
  cases kept <;> exact grows_note w _

end World

/-! ### What steps put on record -/

/-- What an action of the frame `f` in the world `w` puts on record: an account that goes on from
where the frame is, and nothing if another template is asked for. -/
def Step.Adds (f : Frame) (w : World σ) : Step σ → Prop
  | .next g v => ∃ entries, w.Grows v entries ∧
    Account f.depth f.loops.length entries g.loops.length
  | .finish _ v | .fault _ _ _ v => ∃ entries loops, w.Grows v entries ∧
    Account f.depth f.loops.length entries loops
  | .render _ _ _ _ v => w.Grows v []

namespace Frame

variable {ctx : Context σ} {f : Frame} {u w : World σ}

/-- Only the end of a loop leaves it, and there has to be one. -/
theorem loops_ne_nil_of_leave {hosts : HostTypes} {functions : Functions} {vars : Vars}
    {i : Instruction} (h : f.action hosts functions vars i = .ok .leave) : f.loops ≠ [] := by
  by_cases hpop : i.op = .loopPop
  · simp only [action, hpop] at h
    split at h
    · cases h
    · next hloops => simpa using hloops
  by_cases hfinish : i.op = .finish
  · simp only [action, hfinish] at h
    cases h
  -- All other instructions lead to places in at least one loop if they start in one.
  have hways : ∀ w ∈ i.op.ways i.a.toNat i.b.toNat f.pc ⟨1, Set.univ⟩, w.2.loops ≠ 0 := by
    obtain ⟨op, a, b⟩ := i
    cases op <;> simp_all [Opcode.ways]
  have hfollows := action_follows (f := f) (P := fun _ S => S.loops ≠ 0) (S := ⟨1, Set.univ⟩)
    (fun _ _ _ hle hne => hle.1 ▸ hne) (fun _ _ => trivial) hways
    (fun hop => absurd hop hfinish) _ h
  exact absurd rfl hfollows

theorem warnAll_adds (w : World σ) (p : Program) (pc : Nat) (cautions : List Caution)
    (depth loops : Nat) :
    ∃ entries, w.Grows (w.warnAll p pc cautions) entries ∧ Account depth loops entries loops := by
  induction cautions generalizing w with
  | nil => exact ⟨[], .refl w, .nil _ _⟩
  | cons c cs ih =>
    obtain ⟨entries, hgrows, haccount⟩ := ih (w.warn p pc c)
    have hwarn := (w.grows_record (.notice ⟨c, p.source.name, p.lineAt pc⟩)).trans
      (World.grows_note _ (.warning c))
    exact ⟨_, hwarn.trans hgrows, (Account.warn ⟨c, _, _⟩).append haccount⟩

theorem descend_adds (h : u.Grows w []) (q : Program) (scope : Option Vars) (resume : Resume) :
    (f.descend ctx w q scope resume).Adds f u := by
  unfold descend
  split
  · exact ⟨[], _, h, .nil _ _⟩
  · split <;> exact h

theorem load_adds (name : String) {go : Program → World σ → Step σ}
    (hgo : ∀ q v, w.Grows v [] → (go q v).Adds f w) : (f.load ctx w name go).Adds f w := by
  unfold load
  split
  · exact hgo _ _ (.refl w)
  · exact ⟨[], _, .refl w, .nil _ _⟩

/-- The loops that there have to be are there. -/
def HasLoops (f : Frame) : Action → Prop
  | .next _ _ _ _ | .exhaust _ | .leave => f.loops ≠ []
  | _ => True

theorem perform_adds {a : Action} (ha : f.HasLoops a) : (f.perform ctx w a).Adds f w := by
  have on {g : Frame} (hg : g.loops.length = f.loops.length) : (Step.next g w).Adds f w :=
    ⟨[], .refl w, hg ▸ .nil _ _⟩
  cases a with
  | store cautions r v =>
    obtain ⟨entries, hgrows, haccount⟩ :=
      warnAll_adds w f.program f.pc cautions f.depth f.loops.length
    exact ⟨entries, hgrows, haccount⟩
  | append v =>
    cases v with
    | null =>
      obtain ⟨entries, hgrows, haccount⟩ :=
        warnAll_adds w f.program f.pc [.nullOutput] f.depth f.loops.length
      exact ⟨entries, hgrows, haccount⟩
    | _ => exact on rfl
  | enter r first rest => exact ⟨_, w.grows_note _, .push⟩
  | next r item record pc | exhaust record =>
    obtain ⟨l, loops, hloops⟩ := List.exists_cons_of_ne_nil ha
    exact on (by simp [hloops, goto, advance])
  | leave =>
    obtain ⟨l, loops, hloops⟩ := List.exists_cons_of_ne_nil ha
    refine ⟨_, w.grows_note _, ?_⟩
    simp only [hloops, List.length_cons, advance, List.tail_cons]
    exact .pop
  | call r name function args =>
    simp only [perform]
    split
    · exact ⟨_, w.grows_record _, .call name args⟩
    · exact ⟨_, _, w.grows_record _, .call name args⟩
  | inclusion r name =>
    rw [perform]
    exact load_adds name fun q v hv => descend_adds hv q _ _
  | inclusionWith r bindings name =>
    rw [perform]
    refine load_adds name fun q v hv => ?_
    split
    · exact descend_adds hv q _ _
    · exact ⟨[], _, hv, .nil _ _⟩
    · exact ⟨[], _, hv, .nil _ _⟩
  | wrap name before content =>
    rw [perform]
    exact load_adds name fun q v hv => descend_adds hv q _ _
  | finish => exact ⟨[], _, .refl w, .nil _ _⟩
  | _ => exact on rfl

theorem action_hasLoops {hosts : HostTypes} {functions : Functions} {vars : Vars} {i : Instruction}
    {a : Action} (h : f.action hosts functions vars i = .ok a) : f.HasLoops a := by
  have hfollows := action_follows (f := f) (P := fun _ _ => True) (S := ⟨0, Set.univ⟩)
    (fun _ _ _ _ _ => trivial) (fun _ _ => trivial) (fun _ _ => trivial) (fun _ => rfl) a h
  cases a with
  | next r item record pc => exact hfollows.1
  | exhaust record => exact hfollows.1
  | leave => exact loops_ne_nil_of_leave h
  | _ => trivial

end Frame

/-- What a step of the frame `f` in the world `w` puts on record: an account that goes on from where
the frame is; and if another template is asked for, nothing but the instruction that does so. -/
def Step.Tells (f : Frame) (w : World σ) : Step σ → Prop
  | .render _ _ _ _ v => ∃ op ∈ [Opcode.inclusion, .inclusionWith, .wrap],
    w.Grows v [.event (.instruction f.pc op f.loops.length)]
  | s => s.Adds f w

namespace Frame

variable {ctx : Context σ} {f g : Frame} {u v w : World σ}

theorem step_tells (ctx : Context σ) (f : Frame) (w : World σ) : (f.step ctx w).Tells f w := by
  have hmoves := f.step_moves ctx w
  unfold step at hmoves ⊢
  split at hmoves
  · exact ⟨[], _, .refl w, .nil _ _⟩
  · next i hi =>
    have hnote := w.grows_note (.instruction f.pc i.op f.loops.length)
    have hinstruction : Account f.depth f.loops.length _ f.loops.length := .instruction f.pc i.op
    dsimp only at hmoves ⊢
    split at hmoves
    · next a ha =>
      have hadds : (f.perform ctx (w.note (.instruction f.pc i.op f.loops.length)) a).Adds f _ :=
        perform_adds (action_hasLoops ha)
      generalize f.perform ctx (w.note (.instruction f.pc i.op f.loops.length)) a = s
        at hmoves hadds
      cases s with
      | next g v =>
        obtain ⟨entries, hgrows, haccount⟩ := hadds
        exact ⟨_, hnote.trans hgrows, hinstruction.append haccount⟩
      | finish output v =>
        obtain ⟨entries, loops, hgrows, haccount⟩ := hadds
        exact ⟨_, _, hnote.trans hgrows, hinstruction.append haccount⟩
      | fault fault p pc v =>
        obtain ⟨entries, loops, hgrows, haccount⟩ := hadds
        exact ⟨_, _, hnote.trans hgrows, hinstruction.append haccount⟩
      | render q kept g resume v =>
        cases hmoves with
        | render asks _ _ =>
          obtain ⟨j, name, st, hj, hop, -⟩ := asks
          obtain rfl : i = j := Option.some.inj (hi.symm.trans hj)
          exact ⟨_, hop, hnote.trans hadds⟩
    · exact ⟨_, _, hnote, hinstruction⟩

theorem tells_of_step {s : Step σ} (hs : f.step ctx w = s) : s.Tells f w := hs ▸ f.step_tells ctx w

/-! ### What frames put on record -/

theorem resume_loops (ctx : Context σ) (f : Frame) (output : String) (resume : Resume) :
    (f.resume ctx output resume).loops = f.loops := by
  cases resume <;> rfl

/-- A template inside a frame is a visit on the record. -/
theorem visit_adds {q : Program} {kept : Option Vars} {resume : Resume}
    (hs : f.step ctx w = .render q kept g resume v) {after : World σ} {entries : List Entry}
    {left : Nat} (hgrows : (v.note (.enter q.source.name (g.depth + 1))).Grows after entries)
    (haccount : Account (g.depth + 1) 0 entries left) :
    ∃ entries', w.Grows (after.outer kept (g.depth + 1)) entries' ∧
      Account f.depth f.loops.length entries' f.loops.length := by
  obtain ⟨op, hop, hinstruction⟩ := tells_of_step hs
  cases Moves.of_step hs with
  | render _ _ _ =>
    have hinner := (v.grows_note _).trans (hgrows.trans (after.grows_outer kept (f.depth + 1)))
    exact ⟨_, hinstruction.trans hinner, .visit f.pc q.source.name hop haccount⟩

/-- The record of a frame goes on from where the frame is, however it ends. -/
theorem exec_adds {fuel : Nat} {out : Outcome σ} (h : f.exec ctx fuel w = some out) :
    ∃ entries loops, w.Grows out.2 entries ∧ Account f.depth f.loops.length entries loops := by
  replace h := ComesTo.of_exec h
  induction h with
  | next hs _ ih =>
    obtain ⟨entries, loops, hgrows, haccount⟩ := ih
    obtain ⟨entries', hgrows', haccount'⟩ := tells_of_step hs
    cases Moves.of_step hs with
    | next _ hdepth _ =>
      rw [hdepth] at haccount
      exact ⟨_, _, hgrows'.trans hgrows, haccount'.append haccount⟩
  | finish hs => exact tells_of_step hs
  | fault hs => exact tells_of_step hs
  | failure hs _ ih =>
    obtain ⟨entries, loops, hgrows, haccount⟩ := ih
    obtain ⟨entries', hgrows', haccount'⟩ := visit_adds hs hgrows haccount
    exact ⟨_, _, hgrows', haccount'⟩
  | success hs _ _ ihinner ih =>
    obtain ⟨entries, loops, hgrows, haccount⟩ := ihinner
    obtain ⟨entries', hgrows', haccount'⟩ := visit_adds hs hgrows haccount
    obtain ⟨entries'', loops'', hgrows'', haccount''⟩ := ih
    cases Moves.of_step hs with
    | render _ _ _ =>
      rw [resume_depth, resume_loops] at haccount''
      exact ⟨_, _, hgrows'.trans hgrows'', haccount'.append haccount''⟩

end Frame

/-! ### Renders -/

/-- The steps on record, as a recorder without a limit has kept them. -/
def Recorder.stepsOf (entries : List Entry) : List Event :=
  (({} : Recorder).watch (entries.filterMap Entry.event?)).events.toList

theorem Recorder.stepsOf_eq (entries : List Entry) :
    stepsOf entries = entries.filterMap Entry.event? := events_watch rfl _

/-- What a render puts on record, whether it succeeds or fails: the steps of one visit, with all
templates inside it in brackets; and its warnings are those that the reader of warnings is given, in
the same order. -/
theorem Program.render_isVisit {ctx : Context σ} {p : Program} {fuel : Nat} {w v : World σ}
    {result : Except RenderError String} (h : p.render ctx fuel w = some (result, v)) :
    ∃ entries, v.entries.toList = w.entries.toList ++ entries ∧
      IsVisit p.source.name 0 (Recorder.stepsOf entries) ∧
      (Recorder.stepsOf entries).filterMap Event.caution? =
        (WarningSink.collect.collected entries).map Warning.caution := by
  obtain ⟨u, hexec, rfl⟩ := Program.exec_of_render h
  obtain ⟨inner, left, hgrows, haccount⟩ := Frame.exec_adds hexec
  have hall := (w.grows_note (.enter p.source.name 0)).trans
    (hgrows.trans (u.grows_note (.leave 0)))
  refine ⟨_, hall, ?_, ?_⟩
  · refine ⟨inner.filterMap Entry.event?, left, haccount.events, ?_⟩
    simp [Recorder.stepsOf_eq, Entry.event?]
  · have hwarnings := haccount.warnings
    simpa [Recorder.stepsOf_eq, WarningSink.collected, List.filterMap_cons, Entry.event?,
      Entry.notice?, Event.caution?] using hwarnings

/-- A program that includes another one in a loop, and writes null. -/
def Program.touring : Program where
  instructions := #[⟨.loadConst, 0, 0⟩, ⟨.array, 0, 1⟩, ⟨.iterStart, 0, 6⟩, ⟨.inclusion, 0, 0⟩,
    ⟨.iterNext, 0, 3⟩, ⟨.loopPop, 0, 0⟩, ⟨.loadNull, 0, 0⟩, ⟨.append, 0, 0⟩, ⟨.finish, 0, 0⟩]
  pool := #[.str "inner"]
  lines := #[1, 1, 2, 3, 3, 3, 4, 4, 4]
  registerCount := 1
  loopDepth := 1
  source := .anonymous

/-- Its record has a loop, a template in the loop, and a warning. -/
theorem Program.render_touring_isVisit :
    ∃ v entries, touring.render (.ofProgram .stating) 20 { loader := () } =
        some (.ok "(null)", v) ∧
      v.entries.toList = [] ++ entries ∧ IsVisit "-" 0 (Recorder.stepsOf entries) ∧
      (Recorder.stepsOf entries).filterMap Event.caution? =
        (WarningSink.collect.collected entries).map Warning.caution ∧
      entries.filterMap Entry.event? = [.enter "-" 0, .instruction 0 .loadConst 0,
        .instruction 1 .array 0, .instruction 2 .iterStart 0, .loopPush 1,
        .instruction 3 .inclusion 1, .enter "-" 1, .instruction 0 .appendText 0,
        .instruction 1 .finish 0, .leave 1, .instruction 4 .iterNext 1, .instruction 5 .loopPop 1,
        .loopPop 1, .instruction 6 .loadNull 0, .instruction 7 .append 0, .warning .nullOutput,
        .instruction 8 .finish 0, .leave 0] := by
  have hrender : touring.render (.ofProgram .stating) 20 { loader := () } =
      some (.ok "(null)", _) := rfl
  obtain ⟨entries, hentries, hvisit, hwarnings⟩ := render_isVisit hrender
  refine ⟨_, entries, hrender, hentries, hvisit, hwarnings, ?_⟩
  rw [← hentries.trans (List.nil_append entries)]
  rfl

end Stencil
