import Stencil.Proofs.Conduct
import Stencil.Proofs.Validity
import Stencil.Proofs.Ways

/-!
# Tracks through code

The code of a template is followed from place to place. A part of the code may be left at its end
or by exits, and where it may be left the shapes are known. Parts in a row make a longer part, and
an exit that leads to an end of that part is none any more.

* `Draft.Reads`, `Draft.ways`: what a draft reads, and where it leads;
* `Track`: drafts that lead from one shape to another one, or to exits;
* `Expr.tracked`, `Stmt.tracked`: the code of templates has tracks;
* `Stmt.IsProgram.exists_shapes`: the places of a template's program have shapes.
-/

namespace Stencil

/-! ### Drafts -/

/-- The number that an operand of a draft stands for, if it is known already. -/
def Operand.toNat : Operand → Nat
  | .register n | .target n | .number n => n
  | .none | .const _ => 0

/-- A draft reads register `r`. -/
def Draft.Reads (d : Draft) (r : Nat) : Prop := d.op.Reads d.a.toNat d.b.toNat r

/-- The places that a draft at the place `pc` may lead to, and what is known there. -/
def Draft.ways (d : Draft) (pc : Nat) (S : Shape) : List (Nat × Shape) :=
  d.op.ways d.a.toNat d.b.toNat pc S

/-- No instruction minds what constants its operands stand for when it reads or leads on. -/
theorem Opcode.reads_congr {op : Opcode} {a b a' b' : Nat} (ha : op.kinds.1 ≠ .pool → a = a')
    (hb : op.kinds.2 ≠ .pool → b = b') (r : Nat) : op.Reads a b r ↔ op.Reads a' b' r := by
  cases op <;> simp_all [kinds, Reads]

theorem Opcode.ways_congr {op : Opcode} {a b a' b' : Nat} (ha : op.kinds.1 ≠ .pool → a = a')
    (hb : op.kinds.2 ≠ .pool → b = b') (pc : Nat) (S : Shape) :
    op.ways a b pc S = op.ways a' b' pc S := by
  cases op <;> simp_all [kinds, ways]

/-! ### Tracks -/

/-- Places outside of a part of the code, and what has to be known where they are reached. -/
abbrev Exits := List (Nat × Shape)

/-- A place may be reached with what is known there. -/
def Exits.Allow (E : Exits) (pc : Nat) (S : Shape) : Prop := ∃ T ≤ S, (pc, T) ∈ E

namespace Exits

variable {E F : Exits} {pc : Nat} {S T : Shape}

theorem Allow.mono (h : E.Allow pc S) (hE : E ⊆ F) (hS : S ≤ T) : F.Allow pc T :=
  let ⟨U, hU, hmem⟩ := h
  ⟨U, hU.trans hS, hE hmem⟩

/-- A place that may be reached may still be so when two more may. -/
theorem Allow.within (h : E.Allow pc S) (x y : Nat × Shape) : Allow (x :: y :: E) pc S :=
  h.mono (fun _ hz => List.mem_cons_of_mem x (List.mem_cons_of_mem y hz)) le_rfl

theorem allow_head (h : S ≤ T) : Allow ((pc, S) :: E) pc T := ⟨S, h, by simp⟩

theorem allow_second {other : Nat × Shape} (h : S ≤ T) : Allow (other :: (pc, S) :: E) pc T :=
  ⟨S, h, by simp⟩

end Exits

/-- A draft at a place reads nothing that is not known to be written, and leads to places as `P`
says. -/
structure Draft.Fits (pc : Nat) (S : Shape) (P : Nat → Shape → Prop) (d : Draft) : Prop where
  reads : ∀ r, d.Reads r → r ∈ S.filled
  ways : ∀ w ∈ d.ways pc S, P w.1 w.2

theorem Draft.Fits.mono {pc : Nat} {S : Shape} {P Q : Nat → Shape → Prop} {d : Draft}
    (h : d.Fits pc S P) (hPQ : ∀ n T, P n T → Q n T) : d.Fits pc S Q :=
  ⟨h.reads, fun w hw => hPQ _ _ (h.ways w hw)⟩

/-- The drafts at the places from `pc` on lead from the shape `S` to the shape `T` behind them, in
`most` loops at most, or elsewhere by exits. -/
structure Track (E : Exits) (most pc stop : Nat) (ds : List Draft) (S T : Shape) : Prop where
  length : pc + ds.length = stop
  shapes : ∃ shape : Nat → Shape, shape pc ≤ S ∧ shape stop = T ∧ ∀ n d, ds[n]? = some d →
    (shape (pc + n)).loops ≤ most ∧ d.Fits (pc + n) (shape (pc + n)) fun k U =>
      E.Allow k U ∨ pc ≤ k ∧ k ≤ stop ∧ shape k ≤ U

namespace Track

variable {E : Exits} {most pc mid stop : Nat} {ds es : List Draft} {S T T' U : Shape}

theorem nil (hT : T ≤ S) : Track E most pc pc [] S T :=
  ⟨rfl, fun _ => T, hT, rfl, fun n d hd => by simp at hd⟩

/-- Parts in a row. -/
theorem append (h : Track E most pc mid ds S T) (h' : Track E most mid stop es T U) :
    Track E most pc stop (ds ++ es) S U := by
  have hmid := h.length
  have hstop := h'.length
  obtain ⟨shape, hstart, hend, hds⟩ := h.shapes
  obtain ⟨shape', hstart', hend', hes⟩ := h'.shapes
  -- The place between the parts belongs to the second one, which knows no more there.
  let both n := if n < mid then shape n else shape' n
  have hboth {n : Nat} (hn : n ≤ mid) : both n ≤ shape n := by
    simp only [both]
    split
    · exact le_rfl
    · obtain rfl : n = mid := by omega
      exact hend ▸ hstart'
  have hboth' {n : Nat} (hn : mid ≤ n) : both n = shape' n := if_neg (Nat.not_lt.2 hn)
  refine ⟨by rw [List.length_append]; omega, both, (hboth (by omega)).trans hstart,
    (hboth' (by omega)).trans hend', fun n d hd => ?_⟩
  by_cases hn : n < ds.length
  · rw [List.getElem?_append_left hn] at hd
    obtain ⟨hmost, hfits⟩ := hds n d hd
    rw [show both (pc + n) = shape (pc + n) from if_pos (by omega)]
    refine ⟨hmost, hfits.mono fun k U => Or.imp_right fun ⟨hk, hk', hle⟩ => ?_⟩
    exact ⟨hk, by omega, (hboth hk').trans hle⟩
  · rw [List.getElem?_append_right (Nat.not_lt.1 hn)] at hd
    obtain ⟨hmost, hfits⟩ := hes _ d hd
    rw [show mid + (n - ds.length) = pc + n by omega] at hmost hfits
    rw [hboth' (by omega)]
    refine ⟨hmost, hfits.mono fun k U => Or.imp_right fun ⟨hk, hk', hle⟩ => ?_⟩
    exact ⟨by omega, hk', (hboth' hk).symm ▸ hle⟩

/-- Less may be known behind a part. -/
theorem stop_mono (h : Track E most pc stop ds S T) (hT : T' ≤ T) :
    Track E most pc stop ds S T' := by
  have := h.append (.nil hT)
  rwa [List.append_nil] at this

/-- Exits that lead to the ends of a part are none. -/
theorem close (h : Track ((pc, S) :: (stop, T) :: E) most pc stop ds S T) :
    Track E most pc stop ds S T := by
  have hlength := h.length
  obtain ⟨shape, hstart, hstop, hds⟩ := h.shapes
  refine ⟨hlength, shape, hstart, hstop, fun n d hd => ⟨(hds n d hd).1, ?_⟩⟩
  refine (hds n d hd).2.mono fun k U hk => ?_
  rcases hk with ⟨V, hV, hmem⟩ | hk
  · rcases List.mem_cons.1 hmem with hpc | hmem
    · cases hpc
      exact .inr ⟨Nat.le_refl _, by omega, hstart.trans hV⟩
    · rcases List.mem_cons.1 hmem with heq | hmem
      · cases heq
        exact .inr ⟨by omega, Nat.le_refl _, hstop ▸ hV⟩
      · exact .inl ⟨V, hV, hmem⟩
  · exact .inr hk

/-- A part of one draft, which may lead on to what is behind it. -/
theorem single {d : Draft} (hmost : S.loops ≤ most)
    (hd : d.Fits pc S fun k U => E.Allow k U ∨ k = pc + 1 ∧ T ≤ U) :
    Track E most pc (pc + 1) [d] S T := by
  let shape n := if n = pc then S else T
  have hpc : shape pc = S := if_pos rfl
  have hstop : shape (pc + 1) = T := if_neg (Nat.succ_ne_self pc)
  refine ⟨rfl, shape, hpc.le, hstop, fun n e he => ?_⟩
  obtain ⟨rfl, rfl⟩ : n = 0 ∧ d = e := by
    cases n <;> simp_all
  rw [Nat.add_zero, hpc]
  refine ⟨hmost, hd.mono fun k U => Or.imp_right ?_⟩
  rintro ⟨rfl, hU⟩
  exact ⟨Nat.le_succ pc, Nat.le_refl _, hstop.trans_le hU⟩

theorem cons {d : Draft} (h : Track E most pc (pc + 1) [d] S T)
    (h' : Track E most (pc + 1) stop ds T U) : Track E most pc stop (d :: ds) S U :=
  h.append h'

/-- A draft that only leads on. -/
theorem on {d : Draft} (hmost : S.loops ≤ most) (hreads : ∀ r, d.Reads r → r ∈ S.filled)
    (hways : d.ways pc S = [(pc + 1, T)]) : Track E most pc (pc + 1) [d] S T :=
  single hmost ⟨hreads, by simp [hways]⟩

/-- A part and a draft behind it that only leads on. -/
theorem step (h : Track E most pc mid ds S T) {d : Draft} (hmost : T.loops ≤ most)
    (hreads : ∀ r, d.Reads r → r ∈ T.filled) (hways : d.ways mid T = [(mid + 1, U)]) :
    Track E most pc (mid + 1) (ds ++ [d]) S U :=
  h.append (.on hmost hreads hways)

theorem jumpTo {target : Nat} {line : UInt32} (hmost : S.loops ≤ most) (h : E.Allow target S) :
    Track E most pc (pc + 1) [.jumpTo target line] S T :=
  single hmost ⟨nofun, by simpa [Draft.ways, Draft.jumpTo, Opcode.ways] using .inl h⟩

/-- A draft that leads on and to another place. -/
theorem fork {d : Draft} {target : Nat} (hmost : S.loops ≤ most)
    (hreads : ∀ r, d.Reads r → r ∈ S.filled) (hways : d.ways pc S = [(pc + 1, T), (target, U)])
    (h : E.Allow target U) : Track E most pc (pc + 1) [d] S T :=
  single hmost ⟨hreads, by simpa [hways] using .inl h⟩

theorem branch {op : Opcode} (hop : op = .jumpIfFalse ∨ op = .jumpIfTrue) {a target : Nat}
    {line : UInt32} (hmost : S.loops ≤ most) (ha : a ∈ S.filled) (h : E.Allow target S) :
    Track E most pc (pc + 1) [.branchTo op a target line] S S := by
  rcases hop with rfl | rfl
  · exact fork hmost (fun r hr => hr ▸ ha) rfl h
  · exact fork hmost (fun r hr => hr ▸ ha) rfl h

/-- The same part, its end written in another way. -/
theorem ending {stop' : Nat} (h : Track E most pc stop ds S T) (hstop : stop = stop') :
    Track E most pc stop' ds S T := hstop ▸ h

end Track

/-! ### The code of expressions -/

/-- All variables of the loops around a part have been written. -/
def Scope.Filled (S : Shape) (scope : Scope) : Prop := ∀ x ∈ scope, x.2 ∈ S.filled

namespace Scope.Filled

variable {S T : Shape} {scope : Scope}

theorem mono (h : scope.Filled S) (hS : S ≤ T) : scope.Filled T := fun x hx => hS.2 (h x hx)

theorem fill (h : scope.Filled S) (r : Nat) : scope.Filled (S.fill r) := h.mono (Shape.le_fill S r)

theorem lookup (h : scope.Filled S) {name : String} {slot : Nat}
    (hslot : scope.lookup name = some slot) : slot ∈ S.filled := by
  obtain ⟨before, after, hscope, -⟩ := List.lookup_eq_some_iff.1 hslot
  exact h (name, slot) (by simp [hscope])

end Scope.Filled

section Loads

variable {E : Exits} {most pc dst : Nat} {scope : Scope} {S : Shape} {line : UInt32}

theorem Track.loadInteger (hmost : S.loops ≤ most) (n : Int64) :
    Track E most pc (pc + 1) [.loadInteger dst n line] S (S.fill dst) := by
  unfold Draft.loadInteger
  split <;> exact .on hmost nofun rfl

theorem Track.loadVariable (hmost : S.loops ≤ most) (hscope : scope.Filled S) (name : String) :
    Track E most pc (pc + 1) [.loadVariable scope dst name line] S (S.fill dst) := by
  cases hslot : scope.lookup name with
  | some slot =>
    simp only [Draft.loadVariable, hslot]
    exact .on hmost (by rintro r rfl; exact hscope.lookup hslot) rfl
  | none =>
    simp only [Draft.loadVariable, hslot]
    exact .on hmost (fun _ h => False.elim h) rfl

end Loads

theorem BinaryOp.reads_opcode (op : BinaryOp) {a b r : Nat} :
    op.opcode.Reads a b r ↔ r = a ∨ r = b := by
  rcases op with (_ | _) | _ | _ | _ | (_ | _) | _ | _ <;> rfl

theorem BinaryOp.ways_opcode (op : BinaryOp) (a b pc : Nat) (S : Shape) :
    op.opcode.ways a b pc S = [(pc + 1, S.fill a)] := by
  rcases op with (_ | _) | _ | _ | _ | (_ | _) | _ | _ <;> rfl

theorem TextOp.reads_opcode (op : TextOp) {a b r : Nat} : op.opcode.Reads a b r ↔ r = a := by
  cases op <;> rfl

theorem TextOp.ways_opcode (op : TextOp) (a b pc : Nat) (S : Shape) :
    op.opcode.ways a b pc S = [(pc + 1, S)] := by
  cases op <;> rfl

theorem LoopFact.not_reads_opcode (fact : LoopFact) {a b r : Nat} :
    ¬fact.opcode.Reads a b r := by
  cases fact <;> exact id

theorem LoopFact.ways_opcode (fact : LoopFact) (a b pc : Nat) (S : Shape) :
    fact.opcode.ways a b pc S = [(pc + 1, S.fill a)] := by
  cases fact <;> rfl

namespace Expr

/-- The code of an expression leads on, and its register has been written then. -/
def Tracked (most : Nat) (scope : Scope) (e : Expr) : Prop :=
  ∀ ⦃E : Exits⦄ ⦃S : Shape⦄ ⦃dst free pc : Nat⦄, S.loops ≤ most → scope.Filled S →
    Track E most pc (pc + e.size) (e.code scope dst free pc) S (S.fill dst)

/-- The same for expressions in a row. -/
def AllTracked (most : Nat) (scope : Scope) (es : List Expr) : Prop :=
  ∀ ⦃E : Exits⦄ ⦃S : Shape⦄ ⦃dst free pc : Nat⦄, S.loops ≤ most → scope.Filled S →
    Track E most pc (pc + sizes es) (codeRun scope dst free pc es) S (S.fillRun dst es.length)

/-- The code of an expression but its last move leads on, and the first free register has been
written then. -/
def LandsTracked (most : Nat) (scope : Scope) (e : Expr) : Prop :=
  ∀ ⦃E : Exits⦄ ⦃S : Shape⦄ ⦃free pc : Nat⦄, S.loops ≤ most → scope.Filled S →
    Track E most pc (pc + (e.size - 1)) (e.code scope free free pc).dropLast S (S.fill free)

section Cases

variable {most : Nat} {scope : Scope}

theorem AllTracked.cons {e : Expr} {rest : List Expr} (he : e.Tracked most scope)
    (hrest : AllTracked most scope rest) : AllTracked most scope (e :: rest) := by
  intro E S dst free pc hmost hscope
  simp only [codeRun, sizes, List.length_cons, ← Nat.add_assoc]
  exact ((he hmost hscope).append (hrest hmost (hscope.fill dst))).stop_mono
    (Shape.fillRun_succ_le ..)

theorem tracked_binary (op : BinaryOp) {left right : Expr} (hleft : left.Tracked most scope)
    (hright : right.Tracked most scope) (line : UInt32) :
    (binary op left right line).Tracked most scope := by
  intro E S dst free pc hmost hscope
  simp only [code, size, ← Nat.add_assoc]
  refine .stop_mono (((hleft hmost hscope).append (hright hmost (hscope.fill dst))).step hmost
    ?_ (op.ways_opcode ..)) ?_
  · intro q hq
    have hq : q = dst ∨ q = free + left.registers := op.reads_opcode.1 hq
    exact hq.elim (fun h => .inr (.inl h)) .inl
  · exact Shape.fill_mono ((S.le_fill dst).trans (Shape.le_fill _ _)) dst

theorem tracked_and {left right : Expr} (hleft : left.Tracked most scope)
    (hright : right.Tracked most scope) (line : UInt32) :
    (and left right line).Tracked most scope := by
  intro E S dst free pc hmost hscope
  simp only [code, size, ← Nat.add_assoc]
  refine .close (.stop_mono (((hleft hmost hscope).append (.branch (.inl rfl) hmost ?_ ?_)).append
    (hright hmost (hscope.fill dst))) (Shape.le_fill _ _))
  · exact .inl rfl
  · exact Exits.allow_second le_rfl

theorem tracked_or {left right : Expr} (hleft : left.Tracked most scope)
    (hright : right.Tracked most scope) (line : UInt32) :
    (or left right line).Tracked most scope := by
  intro E S dst free pc hmost hscope
  simp only [code, size, ← Nat.add_assoc]
  refine .close (.stop_mono (((hleft hmost hscope).append (.branch (.inr rfl) hmost ?_ ?_)).append
    (hright hmost (hscope.fill dst))) (Shape.le_fill _ _))
  · exact .inl rfl
  · exact Exits.allow_second le_rfl

theorem tracked_not {operand : Expr} (hoperand : operand.Tracked most scope) (line : UInt32) :
    (not operand line).Tracked most scope := by
  intro E S dst free pc hmost hscope
  simp only [code, size, ← Nat.add_assoc]
  refine .stop_mono ((hoperand hmost hscope).step hmost ?_ rfl) (Shape.le_fill _ _)
  rintro r rfl
  exact .inl rfl

theorem tracked_assign (name : String) {value : Expr} (hvalue : value.Tracked most scope)
    (line : UInt32) : (assign name value line).Tracked most scope := by
  intro E S dst free pc hmost hscope
  simp only [code, size, ← Nat.add_assoc]
  refine (hvalue hmost hscope).step hmost ?_ rfl
  rintro r rfl
  exact .inl rfl

theorem tracked_textCall (op : TextOp) {arg : Expr} (harg : arg.Tracked most scope)
    (line : UInt32) : (textCall op arg line).Tracked most scope := by
  intro E S dst free pc hmost hscope
  simp only [code, size, ← Nat.add_assoc]
  exact (harg hmost hscope).step hmost (fun r hr => .inl (op.reads_opcode.1 hr))
    (op.ways_opcode ..)

theorem tracked_choice {test yes no : Expr} (htest : test.Tracked most scope)
    (hyes : yes.Tracked most scope) (hno : no.Tracked most scope) (line : UInt32) :
    (choice test yes no line).Tracked most scope := by
  intro E S dst free pc hmost hscope
  simp only [code, size, ← Nat.add_assoc]
  have hscope' := hscope.fill free
  -- The code up to `no` may lead there early, and from its end it goes behind all code.
  refine .close (.append (T := S.fill free) (.close (.append (.append (.append
    (htest hmost hscope) (.branch (.inl rfl) hmost ?_ ?_)) (hyes hmost hscope'))
      (.jumpTo hmost ?_))) (.stop_mono (hno hmost hscope') ?_))
  · exact .inl rfl
  · exact Exits.allow_second le_rfl
  · exact (Exits.allow_second (Shape.fill_mono (S.le_fill free) dst)).within _ _
  · exact Shape.fill_mono (S.le_fill free) dst

/-- The code of a call is that of its value in the first free register, and a move from there. -/
theorem LandsTracked.tracked {e : Expr} (h : e.LandsTracked most scope) (hpos : 0 < e.size)
    (line : UInt32)
    (hcode : ∀ free pc, ∃ ds, ∀ dst,
      e.code scope dst free pc = ds ++ [.onRegisters .move dst free line]) :
    e.Tracked most scope := by
  intro E S dst free pc hmost hscope
  obtain ⟨ds, hds⟩ := hcode free pc
  have hland : Track E most pc (pc + (e.size - 1)) (e.code scope free free pc).dropLast S
    (S.fill free) := h hmost hscope
  rw [hds, List.dropLast_concat] at hland
  rw [hds]
  refine .stop_mono (.ending (hland.step hmost ?_ rfl) (by omega)) ?_
  · rintro r rfl
    exact .inl rfl
  · exact Shape.fill_mono (S.le_fill free) dst

theorem landsTracked_array {items : List Expr} (hitems : AllTracked most scope items)
    (line : UInt32) : (array items line).LandsTracked most scope := by
  intro E S free pc hmost hscope
  simp only [code, size, List.dropLast_append_cons, List.dropLast_cons_cons,
    List.dropLast_singleton]
  refine .stop_mono ((hitems hmost hscope).step hmost (fun r hr => .inr hr) rfl) ?_
  exact Shape.fill_mono (S.le_fillRun ..) free

theorem landsTracked_map {pairs : List Expr} (hpairs : AllTracked most scope pairs)
    (line : UInt32) : (map pairs line).LandsTracked most scope := by
  intro E S free pc hmost hscope
  simp only [code, size, List.dropLast_append_cons, List.dropLast_cons_cons,
    List.dropLast_singleton]
  refine .stop_mono ((hpairs hmost hscope).step hmost (fun r hr => .inr ?_) rfl) ?_
  · obtain ⟨hfirst, hlast⟩ : free ≤ r ∧ r < free + 2 * (pairs.length / 2) := hr
    exact ⟨hfirst, by omega⟩
  · exact Shape.fill_mono (S.le_fillRun ..) free

theorem landsTracked_format {template : Expr} {args : List Expr}
    (htemplate : template.Tracked most scope) (hargs : AllTracked most scope args)
    (nameLine line : UInt32) : (format template args nameLine line).LandsTracked most scope := by
  intro E S free pc hmost hscope
  simp only [code, size, List.dropLast_append_cons, List.dropLast_cons_cons,
    List.dropLast_singleton]
  refine .ending (.stop_mono (((htemplate hmost hscope).append (hargs hmost
    (hscope.fill free))).step hmost (fun r hr => ?_) rfl) ?_) (by omega)
  · obtain ⟨hfirst, hlast⟩ : free ≤ r ∧ r < free + 1 + args.length := hr
    exact (Shape.fillRun_succ_le ..).2 (.inr ⟨hfirst, by omega⟩)
  · exact Shape.fill_mono ((S.le_fill free).trans (Shape.le_fillRun ..)) free

theorem landsTracked_call (name : String) {args : List Expr}
    (hargs : AllTracked most scope args) (nameLine line : UInt32) :
    (call name args nameLine line).LandsTracked most scope := by
  intro E S free pc hmost hscope
  simp only [code, size, List.dropLast_append_cons, List.dropLast_cons_cons,
    List.dropLast_singleton]
  have hname : Track E most pc (pc + 1) [.loadConst free (.str name) nameLine] S (S.fill free) :=
    .on hmost nofun rfl
  refine .ending (.stop_mono ((hname.append (hargs hmost (hscope.fill free))).step hmost
    (fun r hr => ?_) rfl) ?_) (by omega)
  · obtain ⟨hfirst, hlast⟩ : free ≤ r ∧ r < free + 1 + args.length := hr
    exact (Shape.fillRun_succ_le ..).2 (.inr ⟨hfirst, by omega⟩)
  · exact Shape.fill_mono ((S.le_fill free).trans (Shape.le_fillRun ..)) free

theorem landsTracked_method {object : Expr} (hobject : object.Tracked most scope) (name : String)
    {args : List Expr} (hargs : AllTracked most scope args) (nameLine line : UInt32) :
    (method object name args nameLine line).LandsTracked most scope := by
  intro E S free pc hmost hscope
  simp only [code, size, List.dropLast_append_cons, List.dropLast_cons_cons,
    List.dropLast_singleton]
  have hname : Track E most (pc + object.size) (pc + object.size + 1)
      [.loadConst (free + 1) (.str name) nameLine] (S.fill free)
      ((S.fill free).fill (free + 1)) := .on hmost nofun rfl
  refine .ending (.stop_mono ((((hobject hmost hscope).append hname).append
    (hargs hmost ((hscope.fill free).fill (free + 1)))).step hmost (fun r hr => ?_) rfl) ?_)
    (by omega)
  · obtain ⟨hfirst, hlast⟩ : free ≤ r ∧ r < free + 2 + args.length := hr
    have hrun := (S.fillRun_succ_le free (args.length + 1)).trans (Shape.fillRun_succ_le ..)
    exact hrun.2 (.inr ⟨hfirst, by omega⟩)
  · exact Shape.fill_mono ((S.le_fill free).trans ((Shape.le_fill _ _).trans
      (Shape.le_fillRun ..))) free

end Cases

variable {most : Nat} {scope : Scope}

mutual

/-- The code of every expression leads on. -/
theorem tracked : (e : Expr) → e.Tracked most scope
  | null _ | bool false _ | bool true _ | float _ _ | str _ _ => fun _ _ _ _ _ hmost _ =>
    .on hmost nofun rfl
  | int n _ => fun _ _ _ _ _ hmost _ => .loadInteger hmost n
  | var name _ => fun _ _ _ _ _ hmost hscope => .loadVariable hmost hscope name
  | loopFact fact _ => fun _ _ _ _ _ hmost _ =>
    .on hmost (fun _ hr => absurd hr fact.not_reads_opcode) (fact.ways_opcode ..)
  | binary op left right line => tracked_binary op (tracked left) (tracked right) line
  | and left right line => tracked_and (tracked left) (tracked right) line
  | or left right line => tracked_or (tracked left) (tracked right) line
  | not operand line => tracked_not (tracked operand) line
  | choice test yes no line => tracked_choice (tracked test) (tracked yes) (tracked no) line
  | assign name value line => tracked_assign name (tracked value) line
  | textCall op arg line => tracked_textCall op (tracked arg) line
  | array items line => (landsTracked_array (allTracked items) line).tracked (by simp [size]) line
      fun _ _ => ⟨_, fun _ => append_pair _ _ _⟩
  | map pairs line => (landsTracked_map (allTracked pairs) line).tracked (by simp [size]) line
      fun _ _ => ⟨_, fun _ => append_pair _ _ _⟩
  | format template args nameLine line =>
    (landsTracked_format (tracked template) (allTracked args) nameLine line).tracked
      (by simp [size]) line fun _ _ => ⟨_, fun _ => append_pair _ _ _⟩
  | call name args nameLine line =>
    (landsTracked_call name (allTracked args) nameLine line).tracked
      (by simp [size]) line fun _ _ => ⟨_, fun _ => append_pair _ _ _⟩
  | method object name args nameLine line =>
    (landsTracked_method (tracked object) name (allTracked args) nameLine line).tracked
      (by simp [size]) line fun _ _ => ⟨_, fun _ => append_pair _ _ _⟩

theorem allTracked : (es : List Expr) → AllTracked most scope es
  | [] => fun _ _ _ _ _ _ _ => .nil (Shape.fillRun_zero_le ..)
  | e :: rest => .cons (tracked e) (allTracked rest)

end

/-- The code of an expression whose value is not needed leads on. -/
theorem effect_track {E : Exits} {S : Shape} {free pc : Nat} (hmost : S.loops ≤ most)
    (hscope : scope.Filled S) (e : Expr) :
    Track E most pc (pc + e.effectSize) (e.effect scope free pc) S S := by
  unfold effect effectSize
  split
  · refine .stop_mono ?_ (S.le_fill free)
    match e with
    | format template args nameLine line =>
      exact landsTracked_format (tracked template) (allTracked args) nameLine line hmost hscope
    | call name args nameLine line =>
      exact landsTracked_call name (allTracked args) nameLine line hmost hscope
    | method object name args nameLine line =>
      exact landsTracked_method (tracked object) name (allTracked args) nameLine line hmost hscope
  · exact (tracked e hmost hscope).stop_mono (S.le_fill free)

end Expr

/-! ### The code of statements -/

/-- What is known before the code of a part with `depth` loops in it: there is room for its loops,
all variables of the loops around it have been written, and jumps out of the innermost one lead to
exits. -/
structure Approach (E : Exits) (most depth : Nat) (scope : Scope) (jumps : Jumps) (inLoop : Bool)
    (S : Shape) : Prop where
  room : S.loops + depth ≤ most
  scope : scope.Filled S
  jumps : inLoop = true → E.Allow jumps.last S ∧ E.Allow jumps.next S

namespace Approach

variable {E : Exits} {most depth depth' : Nat} {scope : Scope} {jumps : Jumps} {inLoop : Bool}
  {S : Shape}

theorem most_le (h : Approach E most depth scope jumps inLoop S) : S.loops ≤ most :=
  Nat.le_of_add_right_le h.room

theorem part (h : Approach E most depth scope jumps inLoop S) (hdepth : depth' ≤ depth) :
    Approach E most depth' scope jumps inLoop S :=
  ⟨(Nat.add_le_add_left hdepth _).trans h.room, h.scope, h.jumps⟩

theorem fill (h : Approach E most depth scope jumps inLoop S) (r : Nat) :
    Approach E most depth scope jumps inLoop (S.fill r) :=
  ⟨h.room, h.scope.fill r, fun hloop => (h.jumps hloop).imp
    (·.mono (List.Subset.refl E) (S.le_fill r)) (·.mono (List.Subset.refl E) (S.le_fill r))⟩

theorem within (h : Approach E most depth scope jumps inLoop S) (x y : Nat × Shape) :
    Approach (x :: y :: E) most depth scope jumps inLoop S :=
  ⟨h.room, h.scope, fun hloop => (h.jumps hloop).imp (·.within x y) (·.within x y)⟩

end Approach

/-- The code of a statement leads on, or out of the innermost loop. -/
def Stmt.Tracked (most : Nat) (inLoop : Bool) (s : Stmt) : Prop :=
  ∀ ⦃E : Exits⦄ ⦃S : Shape⦄ ⦃scope : Scope⦄ ⦃jumps : Jumps⦄ ⦃free pc : Nat⦄,
    Approach E most s.loopDepth scope jumps inLoop S →
      Track E most pc (pc + s.size) (s.code scope jumps free pc) S S

/-- The same for statements in a row. -/
def Stmt.AllTracked (most : Nat) (inLoop : Bool) (body : List Stmt) : Prop :=
  ∀ ⦃E : Exits⦄ ⦃S : Shape⦄ ⦃scope : Scope⦄ ⦃jumps : Jumps⦄ ⦃free pc : Nat⦄,
    Approach E most (Stmt.loopDepths body) scope jumps inLoop S →
      Track E most pc (pc + Stmt.sizes body) (Stmt.codes scope jumps free pc body) S S

/-- The same for an arm, which may also lead behind all arms. -/
def Arm.Tracked (most : Nat) (inLoop : Bool) (a : Arm) : Prop :=
  ∀ ⦃E : Exits⦄ ⦃S : Shape⦄ ⦃scope : Scope⦄ ⦃jumps : Jumps⦄ ⦃subject done free pc : Nat⦄,
    Approach E most a.loopDepth scope jumps inLoop S → subject ∈ S.filled → E.Allow done S →
      Track E most pc (pc + a.size) (a.code scope jumps subject done free pc) S S

/-- The same for arms in a row. -/
def Arm.AllTracked (most : Nat) (inLoop : Bool) (arms : List Arm) : Prop :=
  ∀ ⦃E : Exits⦄ ⦃S : Shape⦄ ⦃scope : Scope⦄ ⦃jumps : Jumps⦄ ⦃subject done free pc : Nat⦄,
    Approach E most (Arm.loopDepths arms) scope jumps inLoop S → subject ∈ S.filled →
      E.Allow done S →
        Track E most pc (pc + Arm.sizes arms) (Arm.codes scope jumps subject done free pc arms) S S

section Cases

variable {most : Nat} {inLoop : Bool}

namespace Stmt

theorem AllTracked.cons {s : Stmt} {rest : List Stmt} (hs : s.Tracked most inLoop)
    (hrest : AllTracked most inLoop rest) : AllTracked most inLoop (s :: rest) := by
  intro E S scope jumps free pc h
  simp only [codes, sizes, ← Nat.add_assoc]
  exact (hs (h.part (Nat.le_max_left ..))).append (hrest (h.part (Nat.le_max_right ..)))

theorem tracked_output (value : Expr) (line : UInt32) :
    (output value line).Tracked most inLoop := by
  intro E S scope jumps free pc h
  simp only [code, size, ← Nat.add_assoc]
  refine .stop_mono ((value.tracked h.most_le h.scope).step h.most_le ?_ rfl) (S.le_fill free)
  rintro r rfl
  exact .inl rfl

theorem tracked_when (test : Expr) {body : Stmt} (hbody : body.Tracked most inLoop)
    (line : UInt32) : (when test body line).Tracked most inLoop := by
  intro E S scope jumps free pc h
  simp only [code, size, ← Nat.add_assoc]
  have h' := h.within (pc, S) (pc + test.size + 1 + body.size, S)
  refine .close (.stop_mono (((test.tracked h.most_le h.scope).append
    (.branch (.inl rfl) h.most_le ?_ ?_)).append (hbody (h'.fill free))) (S.le_fill free))
  · exact .inl rfl
  · exact Exits.allow_second (S.le_fill free)

theorem tracked_choice (test : Expr) {yes no : Stmt} (hyes : yes.Tracked most inLoop)
    (hno : no.Tracked most inLoop) (line : UInt32) :
    (choice test yes no line).Tracked most inLoop := by
  intro E S scope jumps free pc h
  simp only [code, size, ← Nat.add_assoc]
  have h' := (h.fill free).within (pc, S) (pc + test.size + 1 + yes.size + 1 + no.size, S)
  have hyes' := (h'.part (Nat.le_max_left ..)).within (pc, S)
    (pc + test.size + 1 + yes.size + 1, S.fill free)
  refine .close (.append (T := S.fill free) (.close (.append (.append (.append
    (test.tracked h.most_le h.scope) (.branch (.inl rfl) h.most_le ?_ ?_)) (hyes hyes'))
      (.jumpTo h.most_le ?_))) (.stop_mono (hno (h'.part (Nat.le_max_right ..))) ?_))
  · exact .inl rfl
  · exact Exits.allow_second le_rfl
  · exact (Exits.allow_second (S.le_fill free)).within _ _
  · exact S.le_fill free

theorem tracked_switch (subject : Expr) {arms : List Arm}
    (harms : Arm.AllTracked most inLoop arms) :
    (switch subject arms).Tracked most inLoop := by
  intro E S scope jumps free pc h
  simp only [code, size, ← Nat.add_assoc]
  have h' := (h.fill free).within (pc, S) (pc + subject.size + Arm.sizes arms, S)
  refine .close (.stop_mono ((subject.tracked h.most_le h.scope).append (harms h' ?_ ?_))
    (S.le_fill free))
  · exact .inl rfl
  · exact Exits.allow_second (S.le_fill free)

/-- The rounds of a loop along a collection: the body, and the step to the next item. The body may
leave the loop, which leads behind that step, and may go on with it, which leads to it. -/
theorem rounds_track {E : Exits} {B : Shape} {scope : Scope} {body : Stmt}
    (hbody : body.Tracked most true) (hroom : B.loops + body.loopDepth ≤ most)
    (hscope : scope.Filled B) (slot free start : Nat) (line : UInt32) :
    Track E most start (start + body.size + 1)
      (body.code scope ⟨start + body.size + 1, start + body.size⟩ free start
        ++ [.branchTo .iterNext slot start line]) B B := by
  let again := start + body.size
  have h : Approach ((start, B) :: (again, B) :: (start, B) :: (again + 1, B) :: E) most
      body.loopDepth scope ⟨again + 1, again⟩ true B :=
    ⟨hroom, hscope, fun _ =>
      ⟨(Exits.allow_second le_rfl).within _ _, Exits.allow_second le_rfl⟩⟩
  exact .close (.append (.close (hbody h))
    (.fork h.most_le nofun rfl (Exits.allow_head (B.le_fill slot))))

/-- Behind its rounds a loop along a collection is still one, and then it is left. A loop without
items leads behind that. -/
theorem tracked_foreach (var : String) (source : Expr) {body : Stmt}
    (hbody : body.Tracked most true) (line : UInt32) :
    (foreach var source body line).Tracked most inLoop := by
  intro E S scope jumps free pc h
  let B := (S.fill free).enter
  have hroom : B.loops + body.loopDepth ≤ most := by
    have := h.room
    simp only [loopDepth] at this
    simp only [B, Shape.loops_enter, Shape.loops_fill]
    omega
  have hscope : Scope.Filled B ((var, free) :: scope) :=
    List.forall_mem_cons.2 ⟨.inl rfl, h.scope.fill free⟩
  have hstart : Track ((pc, S) :: (pc + source.size + 1 + body.size + 2, S) :: E) most
      (pc + source.size) (pc + source.size + 1)
      [.branchTo .iterStart free (pc + source.size + 1 + body.size + 2) line] (S.fill free) B := by
    refine .stop_mono (.fork h.most_le ?_ rfl (Exits.allow_second (S.le_fill free)))
      (Shape.enter_mono (Shape.le_fill _ free))
    rintro r rfl
    exact .inl rfl
  simp only [code, size, Expr.append_pair, ← Nat.add_assoc]
  rw [List.append_assoc _ (body.code ..)]
  refine .close (.stop_mono ((((source.tracked h.most_le h.scope).append hstart).append
    (rounds_track hbody hroom hscope ..)).step (Nat.le_of_add_right_le hroom) ?_ rfl)
      (S.le_fill free))
  exact nofun

theorem tracked_loop (test : Expr) {body : Stmt} (hbody : body.Tracked most true)
    (line : UInt32) : (loop test body line).Tracked most inLoop := by
  intro E S scope jumps free pc h
  simp only [code, size, ← Nat.add_assoc]
  let after := pc + test.size + 1 + body.size + 1
  have hbody' : Approach ((pc, S) :: (after, S) :: E) most body.loopDepth scope ⟨after, pc⟩ true
      (S.fill free) :=
    ⟨h.room, h.scope.fill free, fun _ => ⟨Exits.allow_second (S.le_fill free),
      Exits.allow_head (S.le_fill free)⟩⟩
  refine .close (.append (.append (.append (test.tracked h.most_le h.scope)
    (.branch (.inl rfl) h.most_le ?_ ?_)) (hbody hbody')) (.jumpTo h.most_le ?_))
  · exact .inl rfl
  · exact Exits.allow_second (S.le_fill free)
  · exact Exits.allow_head (S.le_fill free)

theorem tracked_inclusion (path : Expr) (line : UInt32) :
    (inclusion path line).Tracked most inLoop := by
  intro E S scope jumps free pc h
  simp only [code, size, ← Nat.add_assoc]
  refine .stop_mono ((path.tracked h.most_le h.scope).append (.cons
    (.on h.most_le ?_ rfl) (.on h.most_le ?_ rfl))) ((S.le_fill free).trans (Shape.le_fill _ free))
  · rintro r rfl
    exact .inl rfl
  · rintro r rfl
    exact .inl rfl

theorem tracked_inclusionWith (path : Expr) (bindings : List Expr) (line : UInt32) :
    (inclusionWith path bindings line).Tracked most inLoop := by
  intro E S scope jumps free pc h
  simp only [code, size, ← Nat.add_assoc]
  refine .stop_mono (((path.tracked h.most_le h.scope).append
    (Expr.allTracked bindings h.most_le (h.scope.fill free))).append (.cons
      (.on h.most_le (fun r hr => .inr ?_) rfl) (.cons (.on h.most_le ?_ rfl)
        (.on h.most_le ?_ rfl)))) ?_
  · obtain ⟨hfirst, hlast⟩ : free + 1 + path.registers ≤ r ∧
      r < free + 1 + path.registers + 2 * (bindings.length / 2) := hr
    exact ⟨hfirst, by omega⟩
  · rintro r (rfl | rfl)
    · exact .inr (.inl (.inl rfl))
    · exact .inl rfl
  · rintro r rfl
    exact .inl rfl
  · exact (S.le_fill free).trans ((Shape.le_fillRun ..).trans ((Shape.le_fill ..).trans
      (Shape.le_fill ..)))

theorem tracked_wrapper (path : Expr) {body : Stmt} (hbody : body.Tracked most inLoop)
    (line : UInt32) : (wrapper path body line).Tracked most inLoop := by
  intro E S scope jumps free pc h
  simp only [code, size, ← Nat.add_assoc]
  have hmark : Track E most pc (pc + 1) [.onRegister .markOutput free line] S (S.fill free) :=
    .on h.most_le nofun rfl
  refine .stop_mono (((hmark.append (hbody (h.fill free))).append
    (path.tracked h.most_le (h.scope.fill free))).step h.most_le ?_ rfl) ?_
  · rintro r (rfl | rfl)
    · exact .inl rfl
    · exact .inr (.inl rfl)
  · exact (S.le_fill free).trans (Shape.le_fill ..)

end Stmt

namespace Arm

theorem AllTracked.cons {a : Arm} {rest : List Arm} (ha : a.Tracked most inLoop)
    (hrest : AllTracked most inLoop rest) : AllTracked most inLoop (a :: rest) := by
  intro E S scope jumps subject done free pc h hsubject hdone
  simp only [codes, sizes, ← Nat.add_assoc]
  exact (ha (h.part (Nat.le_max_left ..)) hsubject hdone).append
    (hrest (h.part (Nat.le_max_right ..)) hsubject hdone)

theorem tracked_test (value : Expr) {body : Stmt} (hbody : body.Tracked most inLoop)
    (line : UInt32) : (test value body line).Tracked most inLoop := by
  intro E S scope jumps subject done free pc h hsubject hdone
  simp only [code, size, ← Nat.add_assoc]
  have h' := (((h.fill free).fill (subject + 1)).fill (subject + 1)).within (pc, S)
    (pc + value.size + 3 + body.size + 1, S)
  have hle : S ≤ ((S.fill free).fill (subject + 1)).fill (subject + 1) :=
    (S.le_fill free).trans ((Shape.le_fill ..).trans (Shape.le_fill ..))
  refine .close (.append (.append (.append (value.tracked h.most_le h.scope) (.cons
    (.on h.most_le ?_ rfl) (.cons (.on h.most_le ?_ rfl) (.branch (.inl rfl) h.most_le ?_ ?_))))
      (hbody h')) (.jumpTo h.most_le ?_))
  · rintro r rfl
    exact .inr hsubject
  · rintro r (rfl | rfl)
    · exact .inl rfl
    · exact .inr (.inl rfl)
  · exact .inl rfl
  · exact Exits.allow_second hle
  · exact (hdone.mono (List.Subset.refl E) hle).within _ _

theorem tracked_always {body : Stmt} (hbody : body.Tracked most inLoop) (line : UInt32) :
    (always body line).Tracked most inLoop := by
  intro E S scope jumps subject done free pc h hsubject hdone
  simp only [code, size, ← Nat.add_assoc]
  have h' := (h.fill (subject + 1)).within (pc, S) (pc + 2 + body.size + 1, S)
  refine .close (.append (.append (.cons (.on h.most_le nofun rfl)
    (.branch (.inl rfl) h.most_le ?_ ?_)) (hbody h')) (.jumpTo h.most_le ?_))
  · exact .inl rfl
  · exact Exits.allow_second (S.le_fill _)
  · exact (hdone.mono (List.Subset.refl E) (S.le_fill _)).within _ _

end Arm

end Cases

variable {most : Nat} {P : String → Prop}

mutual

/-- The code of every statement that leads out of no loop but its own leads on, or out of the
innermost loop around it. -/
theorem Stmt.tracked : {inLoop : Bool} → (s : Stmt) → s.Behaves P inLoop → s.Tracked most inLoop
  | _, .block body, hs => Stmt.allTracked body hs
  | _, .text _ _, _ => fun _ _ _ _ _ _ h => .on h.most_le nofun rfl
  | _, .output value _, _ => Stmt.tracked_output value _
  | _, .eval e, _ => fun _ _ _ _ _ _ h => e.effect_track h.most_le h.scope
  | _, .when test body line, hs => Stmt.tracked_when test (Stmt.tracked body hs) line
  | _, .choice test yes no line, hs =>
    Stmt.tracked_choice test (Stmt.tracked yes hs.1) (Stmt.tracked no hs.2) line
  | _, .switch subject arms, hs => Stmt.tracked_switch subject (Arm.allTracked arms hs)
  | _, .foreach var source body line, hs =>
    Stmt.tracked_foreach var source (Stmt.tracked body hs) line
  | _, .loop test body line, hs => Stmt.tracked_loop test (Stmt.tracked body hs) line
  | _, .last _, hs => fun _ _ _ _ _ _ h => .jumpTo h.most_le (h.jumps hs).1
  | _, .next _, hs => fun _ _ _ _ _ _ h => .jumpTo h.most_le (h.jumps hs).2
  | _, .inclusion path line, _ => Stmt.tracked_inclusion path line
  | _, .inclusionWith path bindings line, _ => Stmt.tracked_inclusionWith path bindings line
  | _, .wrapper path body line, hs => Stmt.tracked_wrapper path (Stmt.tracked body hs) line

theorem Stmt.allTracked : {inLoop : Bool} → (body : List Stmt) → Stmt.AllBehave P inLoop body →
    Stmt.AllTracked most inLoop body
  | _, [], _ => fun _ _ _ _ _ _ _ => .nil le_rfl
  | _, s :: rest, hs => .cons (Stmt.tracked s hs.1) (Stmt.allTracked rest hs.2)

theorem Arm.allTracked : {inLoop : Bool} → (arms : List Arm) → Arm.AllBehave P inLoop arms →
    Arm.AllTracked most inLoop arms
  | _, [], _ => fun _ _ _ _ _ _ _ _ _ _ _ => .nil le_rfl
  | _, .test value body line :: rest, hs =>
    .cons (Arm.tracked_test value (Stmt.tracked body hs.1) line) (Arm.allTracked rest hs.2)
  | _, .always body line :: rest, hs =>
    .cons (Arm.tracked_always (Stmt.tracked body hs.1) line) (Arm.allTracked rest hs.2)

end

/-! ### Programs -/

/-- A number that stands for an operand is the number of the operand, unless it is the place of a
constant. -/
theorem Operand.Suits.toNat_eq {R N : Nat} {kind : OperandKind} {o : Operand}
    (ho : o.Suits R N kind) (hkind : kind ≠ .pool) {pool : Array Constant} {x : UInt32}
    (hx : o.IsNumber pool x) : o.toNat = x.toNat := by
  cases o with
  | const c => cases kind <;> simp_all [Operand.Suits]
  | none => exact congrArg UInt32.toNat (show x = 0 from hx).symm
  | register _ | target _ | number _ => exact Eq.symm hx

/-- The instructions of a template's program carry out drafts of its code, and the last one ends the
program. -/
theorem Stmt.IsProgram.draft {s : Stmt} {source : Source} {p : Program} (h : s.IsProgram source p)
    {n : Nat} {i : Instruction} (hi : p.instructions[n]? = some i) :
    (∃ d : Draft, (s.code [] {} 0 0)[n]? = some d ∧ i.op = d.op ∧
      (∀ r, i.op.Reads i.a.toNat i.b.toNat r ↔ d.Reads r) ∧
      ∀ pc S, i.op.ways i.a.toNat i.b.toNat pc S = d.ways pc S) ∨
    (n = s.size ∧ i.op = .finish) := by
  obtain ⟨hn, -⟩ := Array.getElem?_eq_some_iff.1 hi
  have hlength : s.drafts.length = s.size + 1 := by simp [Stmt.drafts]
  by_cases hlast : n < (s.code [] {} 0 0).length
  · have hd : (s.code [] {} 0 0)[n]? = some (s.code [] {} 0 0)[n] := List.getElem?_eq_getElem hlast
    obtain ⟨x, y, hi', hx, hy, -⟩ := h.code.getElem? (n := n)
      (by rw [Stmt.drafts, List.getElem?_append_left hlast]; exact hd)
    rw [Nat.zero_add, hi] at hi'
    cases hi'
    have hsuits := s.drafts_suits _ (List.getElem_mem hlast)
    exact .inl ⟨_, hd, rfl,
      Opcode.reads_congr (fun hkind => (hsuits.first.toNat_eq hkind hx).symm)
        fun hkind => (hsuits.second.toNat_eq hkind hy).symm,
      Opcode.ways_congr (fun hkind => (hsuits.first.toNat_eq hkind hx).symm)
        fun hkind => (hsuits.second.toNat_eq hkind hy).symm⟩
  · rw [Stmt.length_code] at hlast
    rw [h.size, hlength] at hn
    rcases h.instruction hi with ⟨hlt, -⟩ | ⟨-, rfl⟩
    · rw [h.size, hlength] at hlt
      omega
    · exact .inr ⟨by omega, rfl⟩

/-- Every place of a template's program has a shape, with no more loops than are nested in the
template. -/
theorem Stmt.IsProgram.exists_shapes {s : Stmt} {source : Source} {p : Program}
    (h : s.IsProgram source p) {P : String → Prop} (hs : s.Behaves P false) :
    ∃ shape : Nat → Shape, p.HasShapes shape ∧
      ∀ n < p.instructions.size, (shape n).loops ≤ s.loopDepth := by
  have happroach : Approach [] s.loopDepth s.loopDepth [] {} false .start :=
    ⟨(Nat.zero_add _).le, nofun, nofun⟩
  have htrack : Track [] s.loopDepth 0 (0 + s.size) (s.code [] {} 0 0) .start .start :=
    Stmt.tracked s hs happroach
  obtain ⟨-, shape, hstart, hstop, hds⟩ := htrack
  simp only [Nat.zero_add] at hstop hds
  refine ⟨shape, ⟨hstart, fun {n i} hi => ?_, fun {n i} hi => ?_, fun {n i} hi hfinish => ?_⟩,
    fun n hn => ?_⟩
  · rcases h.draft hi with ⟨d, hd, -, hreads, -⟩ | ⟨-, hop⟩
    · exact fun r hr => (hds n d hd).2.reads r ((hreads r).1 hr)
    · rw [hop]
      exact nofun
  · rcases h.draft hi with ⟨d, hd, -, -, hways⟩ | ⟨-, hop⟩
    · rw [hways]
      intro w hw
      exact ((hds n d hd).2.ways w hw).elim (fun ⟨_, _, hmem⟩ => nomatch hmem) fun hk => hk.2.2
    · rw [hop]
      exact nofun
  · rcases h.draft hi with ⟨d, hd, hop, -⟩ | ⟨rfl, -⟩
    · exact absurd (hop.symm.trans hfinish) (s.drafts_suits d (List.mem_of_getElem? hd)).goesOn
    · rw [hstop]
      rfl
  · rcases h.draft (Array.getElem?_eq_getElem hn) with ⟨d, hd, -⟩ | ⟨rfl, -⟩
    · exact (hds n d hd).1
    · rw [hstop]
      exact Nat.zero_le _

end Stencil
