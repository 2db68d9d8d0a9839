import Stencil.Proofs.Assembling
import Stencil.Proofs.Validity

/-!
# Every constant has one place

The pool of a program never holds a constant twice, and a constant never moves. Constants are equal
if they are of one kind and equal as texts, as integers or as bit patterns: the two zeros are
different constants, and so are an integer and the double of the same size.

* `Assembly.InStep`: the index of an assembly tells where each constant is in the pool;
* `Assembly.InStep.constant_eq_ok`: looking a constant up is the same as searching the pool;
* `Assembly.Interns`: the places that were given for constants;
* `Program.UsesPool`: the instructions of a program name every place of its pool;
* `interning_exact`: both hold for all requests and all templates.
-/

namespace Stencil

/-! ### Pools -/

namespace Pool

variable {pool : Array Constant} {c : Constant} {n : Nat}

/-- A constant has one place. -/
theorem place_unique {m : Nat} (h : pool.toList.Nodup) (hm : pool[m]? = some c)
    (hn : pool[n]? = some c) : m = n := by
  obtain ⟨hlt, -⟩ := Array.getElem?_eq_some_iff.1 hm
  refine (List.getElem?_inj hlt h).1 ?_
  rw [Array.getElem?_toList, Array.getElem?_toList, hm, hn]

theorem idxOf?_eq_some (h : pool.toList.Nodup) : pool.idxOf? c = some n ↔ pool[n]? = some c := by
  have hplace : ∀ {m : Nat}, pool.idxOf? c = some m → pool[m]? = some c := by
    intro m hm
    have hintern := intern_getElem? pool c
    simpa only [intern, hm] using hintern
  refine ⟨hplace, fun hn => ?_⟩
  cases hm : pool.idxOf? c with
  | none => exact absurd (Array.mem_of_getElem? hn) (Array.idxOf?_eq_none_iff.1 hm)
  | some m => rw [place_unique h (hplace hm) hn]

theorem nodup_push (h : pool.toList.Nodup) (hc : c ∉ pool) : (pool.push c).toList.Nodup := by
  rw [Array.toList_push, List.nodup_append]
  refine ⟨h, List.pairwise_singleton _ c, fun d hd e he => ?_⟩
  rw [List.mem_singleton.1 he]
  exact ne_of_mem_of_not_mem (Array.mem_toList_iff.1 hd) hc

/-- A constant that is there already is not added again. -/
theorem nodup_intern (h : pool.toList.Nodup) (c : Constant) : (intern pool c).1.toList.Nodup := by
  unfold intern
  split
  · exact h
  · next hnone => exact nodup_push h (Array.idxOf?_eq_none_iff.1 hnone)

theorem mem_intern {d : Constant} (h : d ∈ (intern pool c).1) : d ∈ pool ∨ d = c := by
  unfold intern at h
  split at h
  · exact .inl h
  · exact Array.mem_push.1 h

end Pool

/-! ### Assemblies -/

namespace Assembly

/-- The index tells where each constant is in the pool. -/
structure InStep (s : Assembly) : Prop where
  nodup : s.pool.toList.Nodup
  size : s.pool.size ≤ operandLimit
  index : ∀ c n, s.places.lookup c = some n ↔ s.pool[n.toNat]? = some c

variable {s t u : Assembly} {r : Request} {answer : Answer} {c : Constant}

namespace InStep

theorem lookup_eq_none (h : s.InStep) : s.places.lookup c = none ↔ c ∉ s.pool := by
  constructor
  · intro hnone hmem
    obtain ⟨n, hn⟩ := Array.getElem?_of_mem hmem
    obtain ⟨hlt, -⟩ := Array.getElem?_eq_some_iff.1 hn
    have hplace : (UInt32.ofNat n).toNat = n := Nat.mod_eq_of_lt (Nat.lt_of_lt_of_le hlt h.size)
    exact nomatch hnone.symm.trans ((h.index c (UInt32.ofNat n)).2 (hplace.symm ▸ hn))
  · intro hmem
    rw [Option.eq_none_iff_forall_ne_some]
    intro n hn
    exact hmem (Array.mem_of_getElem? ((h.index c n).1 hn))

theorem empty : InStep {} where
  nodup := List.nodup_nil
  size := Nat.zero_le _
  index c n := by simp

/-- A new constant gets the next place. -/
theorem push (h : s.InStep) {n : UInt32} (hnone : s.places.lookup c = none)
    (hn : n.toNat = s.pool.size) :
    InStep { s with pool := s.pool.push c, places := (c, n) :: s.places } where
  nodup := Pool.nodup_push h.nodup (h.lookup_eq_none.1 hnone)
  size := by
    rw [Array.size_push, ← hn]
    exact n.toNat_lt
  index d m := by
    change List.lookup d ((c, n) :: s.places) = some m ↔ (s.pool.push c)[m.toNat]? = some d
    rw [List.lookup_cons, Array.getElem?_push]
    -- Only the new place holds the new constant: it was in no place before.
    rcases eq_or_ne d c with rfl | hdc
    · rw [beq_self_eq_true]
      constructor
      · rintro ⟨⟩
        exact if_pos hn
      · intro hm
        split at hm
        · next hsize => exact congrArg some (UInt32.toNat_inj.1 (hn.trans hsize.symm))
        · exact nomatch hnone.symm.trans ((h.index d m).2 hm)
    · rw [beq_false_of_ne hdc]
      refine (h.index d m).trans ?_
      split
      · next hsize =>
        rw [hsize, Array.getElem?_eq_none (Nat.le_refl _)]
        exact iff_of_false nofun fun hcd => hdc (Option.some.inj hcd).symm
      · exact Iff.rfl

end InStep

theorem Serves.inStep (h : s.Serves r (answer, t)) (hs : s.InStep) : t.InStep := by
  cases h with
  | refused h => exact hs
  | granted h =>
    cases h with
    | new hnone hn => exact hs.push hnone hn
    | _ => exact ⟨hs.nodup, hs.size, hs.index⟩

theorem Serves.pool (h : s.Serves r (answer, t)) : s.pool.toList <+: t.pool.toList := by
  cases h with
  | refused h => exact List.prefix_rfl
  | granted h =>
    cases h with
    | new hnone hn => exact ⟨_, Array.toList_push.symm⟩
    | _ => exact List.prefix_rfl

/-- A constant is where the answer says. -/
theorem Serves.getElem?_pool {n : Nat} (h : s.Serves (.constant c) (.ok (some n), t))
    (hs : s.InStep) : t.pool[n]? = some c := by
  cases h with
  | granted h =>
    cases h with
    | known hplace => exact (hs.index c _).1 hplace
    | new hnone hn => rw [hn]; exact Array.getElem?_push_size

variable {log : List (Request × Answer)}

theorem Record.inStep (h : Record s log u) (hs : s.InStep) : u.InStep := by
  induction h with
  | nil s => exact hs
  | cons hserves _ ih => exact ih (hserves.inStep hs)

theorem Record.pool (h : Record s log u) : s.pool.toList <+: u.pool.toList := by
  induction h with
  | nil s => exact List.prefix_rfl
  | cons hserves _ ih => exact hserves.pool.trans ih

/-- Looking a constant up in the index gives what a search along the pool gives. -/
theorem InStep.constant_eq_ok (h : s.InStep) {b : Builder} {n : UInt32} :
    s.toBuilder.constant c = .ok (b, n) ↔ (s.serve (.constant c)).1 = .ok (some n.toNat) ∧
      (s.serve (.constant c)).2.toBuilder = b := by
  -- Once the search has found a place, it remains to compare this place with the answer.
  have hsame : ∀ {b₁ : Builder} {m : UInt32}, s.toBuilder.constant c = .ok (b₁, m) →
      (s.toBuilder.constant c = .ok (b, n) ↔
        (.ok (some m.toNat) : Answer) = .ok (some n.toNat) ∧ b₁ = b) := by
    intro b₁ m hm
    rw [hm]
    constructor
    · rintro ⟨⟩
      exact ⟨rfl, rfl⟩
    · rintro ⟨hmn, rfl⟩
      rw [UInt32.toNat_inj.1 (Option.some.inj (Except.ok.inj hmn))]
  have hserves := s.serves (.constant c)
  generalize s.serve (.constant c) = out at hserves ⊢
  cases hserves with
  | granted hgrants =>
    cases hgrants with
    | @known _ m hplace =>
      have hm := (Pool.idxOf?_eq_some h.nodup).2 ((h.index c m).1 hplace)
      refine hsame ?_
      simp only [Builder.constant, Pool.intern, hm, operand_toNat]
      rfl
    | @new _ m hnone hsize =>
      have hm := Array.idxOf?_eq_none_iff.2 (h.lookup_eq_none.1 hnone)
      refine hsame ?_
      simp only [Builder.constant, Pool.intern, hm, ← hsize, operand_toNat]
      rfl
  | refused hmuch =>
    cases hmuch with
    | constant hnone hsize =>
      have hm := Array.idxOf?_eq_none_iff.2 (h.lookup_eq_none.1 hnone)
      simp only [Builder.constant, Pool.intern, hm, operand_of_le hsize]
      constructor
      · intro hok
        cases hok
      · rintro ⟨hok, -⟩
        cases hok

/-- The places that were given for constants. -/
structure Interns (s : Assembly) (log : List (Request × Answer)) : Prop where
  nodup : s.pool.toList.Nodup
  /-- A constant is at the place that it was given. -/
  place : ∀ c n, (Request.constant c, .ok (some n)) ∈ log → s.pool[n]? = some c
  /-- Constants have the same place if and only if they are the same. -/
  same : ∀ c d m n, (Request.constant c, .ok (some m)) ∈ log →
    (Request.constant d, .ok (some n)) ∈ log → (m = n ↔ c = d)
  /-- A constant is refused only if the pool has no room for it. -/
  answered : ∀ c, c ∈ s.pool ∨ s.pool.size < operandLimit →
    ∃ n, (s.serve (.constant c)).1 = .ok (some n)

theorem Record.getElem?_pool {n : Nat} (h : Record s log u) (hs : s.InStep)
    (hmem : (Request.constant c, .ok (some n)) ∈ log) : u.pool[n]? = some c := by
  obtain ⟨before, after, rfl⟩ := List.append_of_mem hmem
  obtain ⟨t, v, hbefore, hserves, hafter⟩ := h.cut
  have hplace := hserves.getElem?_pool (hbefore.inStep hs)
  obtain ⟨rest, hrest⟩ := hafter.pool
  obtain ⟨hlt, -⟩ := Array.getElem?_eq_some_iff.1 hplace
  rw [← Array.getElem?_toList, ← hrest, List.getElem?_append_left hlt, Array.getElem?_toList,
    hplace]

theorem Record.interns (h : Record {} log u) : u.Interns log where
  nodup := (h.inStep .empty).nodup
  place c n hmem := h.getElem?_pool .empty hmem
  same c d m n hc hd := by
    have hm := h.getElem?_pool .empty hc
    have hn := h.getElem?_pool .empty hd
    constructor
    · rintro rfl
      exact Option.some.inj (hm.symm.trans hn)
    · rintro rfl
      exact Pool.place_unique (h.inStep .empty).nodup hm hn
  answered c hroom := by
    have hserves := u.serves (.constant c)
    generalize u.serve (.constant c) = out at hserves ⊢
    cases hserves with
    | granted h =>
      cases h <;> exact ⟨_, rfl⟩
    | refused hmuch =>
      cases hmuch with
      | constant hnone hsize =>
        rcases hroom with hmem | hroom
        · exact absurd hmem ((h.inStep .empty).lookup_eq_none.1 hnone)
        · exact absurd hroom (Nat.not_lt.2 hsize)

/-- Requests in two portions are the same as all requests at once. -/
theorem serveAll_append (s : Assembly) (first second : List Request) :
    (serveAll s (first ++ second)).2 = (serveAll (serveAll s first).2 second).2 := by
  induction first generalizing s with
  | nil => rfl
  | cons r rest ih => exact ih _

theorem pool_prefix {part requests : List Request} (h : part <+: requests) (s : Assembly) :
    (serveAll s part).2.pool.toList <+: (serveAll s requests).2.pool.toList := by
  obtain ⟨rest, rfl⟩ := h
  rw [serveAll_append]
  exact (record _ rest).pool

end Assembly

/-! ### Programs -/

/-- The instruction has the place `n` of the pool as an operand. -/
def Instruction.Names (i : Instruction) (n : Nat) : Prop :=
  i.op.kinds.1 = .pool ∧ i.a.toNat = n ∨ i.op.kinds.2 = .pool ∧ i.b.toNat = n

/-- No constant is twice in the pool, and every place of the pool is the operand of an
instruction. -/
structure Program.UsesPool (p : Program) : Prop where
  nodup : p.pool.toList.Nodup
  named : ∀ n < p.pool.size, ∃ i ∈ p.instructions, i.Names n

namespace Builder

variable {b b' : Builder}

theorem constant_pool {c : Constant} {n : UInt32} (h : b.constant c = .ok (b', n)) :
    b'.pool = (Pool.intern b.pool c).1 := by
  obtain ⟨index, -, h⟩ := bind_eq_ok.1 h
  cases h
  rfl

theorem number_pool {o : Operand} {n : UInt32} (h : b.number o = .ok (b', n))
    (hb : b.pool.toList.Nodup) :
    b'.pool.toList.Nodup ∧ ∀ c ∈ b'.pool, c ∈ b.pool ∨ o = .const c := by
  cases o with
  | const k =>
    rw [constant_pool h]
    refine ⟨Pool.nodup_intern hb k, fun c hc => (Pool.mem_intern hc).imp_right fun hck => ?_⟩
    rw [hck]
  | none =>
    cases h
    exact ⟨hb, fun c hc => .inl hc⟩
  | register | target | number =>
    obtain ⟨x, -, h⟩ := bind_eq_ok.1 h
    cases h
    exact ⟨hb, fun c hc => .inl hc⟩

theorem add_pool {d : Draft} (h : b.add d = .ok b') (hb : b.pool.toList.Nodup) :
    b'.pool.toList.Nodup ∧ ∀ c ∈ b'.pool, c ∈ b.pool ∨ d.a = .const c ∨ d.b = .const c := by
  obtain ⟨⟨b₁, x⟩, hx, h⟩ := bind_eq_ok.1 h
  obtain ⟨⟨b₂, y⟩, hy, h⟩ := bind_eq_ok.1 h
  cases h
  obtain ⟨hb₁, hfirst⟩ := number_pool hx hb
  obtain ⟨hb₂, hsecond⟩ := number_pool hy hb₁
  refine ⟨hb₂, fun c hc => ?_⟩
  obtain hc | hc := hsecond c hc
  · exact (hfirst c hc).imp_right .inl
  · exact .inr (.inr hc)

theorem addAll_pool {ds : List Draft} (h : b.addAll ds = .ok b') (hb : b.pool.toList.Nodup) :
    b'.pool.toList.Nodup ∧
      ∀ c ∈ b'.pool, c ∈ b.pool ∨ ∃ d ∈ ds, d.a = .const c ∨ d.b = .const c := by
  induction ds generalizing b with
  | nil =>
    cases h
    exact ⟨hb, fun c hc => .inl hc⟩
  | cons d ds ih =>
    obtain ⟨b₁, h₁, h⟩ := bind_eq_ok.1 h
    obtain ⟨hb₁, hfirst⟩ := add_pool h₁ hb
    obtain ⟨hb', hrest⟩ := ih h hb₁
    refine ⟨hb', fun c hc => ?_⟩
    obtain hc | ⟨e, he, hec⟩ := hrest c hc
    · exact (hfirst c hc).imp_right fun hd => ⟨d, List.mem_cons_self, hd⟩
    · exact .inr ⟨e, List.mem_cons_of_mem d he, hec⟩

end Builder

theorem Operand.Suits.eq_pool {R N : Nat} {kind : OperandKind} {o : Operand} {c : Constant}
    (h : o.Suits R N kind) (ho : o = .const c) : kind = .pool := by
  subst ho
  cases kind <;> first | rfl | cases h

/-- A draft of a template's program with a constant becomes an instruction that names its place. -/
theorem Stmt.IsProgram.names {s : Stmt} {source : Source} {p : Program}
    (h : s.IsProgram source p) (hp : p.pool.toList.Nodup) {d : Draft} (hd : d ∈ s.drafts)
    {c : Constant} (hc : d.a = .const c ∨ d.b = .const c) {n : Nat} (hn : p.pool[n]? = some c) :
    ∃ i ∈ p.instructions, i.Names n := by
  obtain ⟨m, hm⟩ := List.getElem?_of_mem hd
  obtain ⟨x, y, hi, hx, hy, -⟩ := h.code.getElem? hm
  refine ⟨_, Array.mem_of_getElem? hi, ?_⟩
  -- Only the end of the program is beyond the code, and it has no operands.
  have hsuits : d.Suits s.registers s.drafts.length := by
    rw [Stmt.drafts, List.mem_append, List.mem_singleton] at hd
    obtain hcode | rfl := hd
    · exact s.drafts_suits d hcode
    · rcases hc with hc | hc <;> cases hc
  obtain hc | hc := hc
  · rw [hc] at hx
    exact .inl ⟨hsuits.first.eq_pool hc, Pool.place_unique hp hx hn⟩
  · rw [hc] at hy
    exact .inr ⟨hsuits.second.eq_pool hc, Pool.place_unique hp hy hn⟩

theorem Stmt.program_usesPool {s : Stmt} {source : Source} {p : Program}
    (h : s.program source = .ok p) : p.UsesPool := by
  have hprogram := Stmt.program_spec h
  rw [Stmt.program] at h
  split at h
  · cases h
  obtain ⟨b, hb, h⟩ := bind_eq_ok.1 h
  cases h
  obtain ⟨hnodup, hdraws⟩ := Builder.addAll_pool hb List.nodup_nil
  refine ⟨hnodup, fun n hn => ?_⟩
  obtain hc | ⟨d, hd, hc⟩ := hdraws _ (Array.getElem_mem hn)
  · exact absurd hc (Array.not_mem_empty _)
  · exact hprogram.names hnodup hd hc (Array.getElem?_eq_getElem hn)

theorem Program.compile_usesPool {tree : Node} {source : Source} {p : Program}
    (h : Program.compile tree source = .ok p) : p.UsesPool := by
  obtain ⟨s, -, hs⟩ := Program.compile_eq_ok h
  exact Stmt.program_usesPool hs

/-- The places of constants are exact. Requests in any order get one place for each constant, where
it stays, and the same place as from a search along the pool; a compiled program has no constant
that it does not name. -/
theorem interning_exact (requests : List Request) :
    (∃ log s, Assembly.serveAll {} requests = (log, s) ∧ s.Interns log ∧
      (∀ part, part <+: requests →
        (Assembly.serveAll {} part).2.pool.toList <+: s.pool.toList) ∧
      ∀ c b n, s.toBuilder.constant c = .ok (b, n) ↔
        (s.serve (.constant c)).1 = .ok (some n.toNat) ∧
          (s.serve (.constant c)).2.toBuilder = b) ∧
    ∀ tree source p, Program.compile tree source = .ok p → p.UsesPool := by
  have hrecord := Assembly.record {} requests
  refine ⟨⟨_, _, rfl, hrecord.interns, fun part hpart => Assembly.pool_prefix hpart _,
    fun c b n => (hrecord.inStep .empty).constant_eq_ok⟩, ?_⟩
  exact fun _ _ _ => Program.compile_usesPool

/-- The text of a page and the name of its variable stay apart and are both in use. -/
theorem interning_exact_counting :
    ∃ p, Program.compile .counting .anonymous = .ok p ∧ p.UsesPool := by
  have hok : (Program.compile .counting .anonymous).isOk := by decide +kernel
  obtain ⟨p, hp⟩ := Program.exists_of_isOk hok
  exact ⟨p, hp, (interning_exact []).2 _ _ p hp⟩

/-- The integer five, the double five and the two zeros are four constants. -/
example : (Assembly.serveAll {} [.constant (.int 5), .constant (.float 0x4014000000000000),
    .constant (.float 0), .constant (.int 5), .constant (.float 0x8000000000000000)]).2.pool =
      #[.int 5, .float 0x4014000000000000, .float 0, .float 0x8000000000000000] := by decide

end Stencil
