import Stencil.Proofs.Ordering

/-!
# Equality as an equivalence

Equality is reflexive on values without not-a-number, and symmetric. Integers and doubles are
compared as doubles, so that an integer is equal to all doubles that are the integer rounded to 53
bits. Equality is transitive on integers that stay apart when they are rounded, and on no others.

* `Value.IsProper`: values without not-a-number, with integers of a given kind;
* `Value.IsProper.eq_self`, `Value.IsProper.eq_symm`, `Value.IsProper.eq_trans`: the three laws;
* `Value.equivalence_iff`: where equality is an equivalence relation;
* `Value.eq_laws`: all that holds of equality;
* `Value.eq_not_transitive`: two integers that are equal to the same double.
-/

namespace Stencil

/-! ### Entries of tables -/

namespace Bindings
variable {α : Type} {b : Bindings α} {name : String} {value : α}

theorem mem_of_get? (h : get? b name = some value) : (name, value) ∈ b := by
  induction b with
  | nil => cases h
  | cons p rest ih =>
    obtain ⟨k, v⟩ := p
    rw [get?_cons] at h
    split at h
    · next hk => rw [hk, Option.some.inj h]; exact List.mem_cons_self
    · exact List.mem_cons_of_mem _ (ih h)

theorem get?_of_mem (hnodup : (names b).Nodup) (h : (name, value) ∈ b) :
    get? b name = some value := by
  induction b with
  | nil => cases h
  | cons p rest ih =>
    obtain ⟨k, v⟩ := p
    obtain ⟨hk, hrest⟩ := List.nodup_cons.1 hnodup
    rw [get?_cons]
    rcases List.mem_cons.1 h with heq | hmem
    · cases heq
      rw [if_pos rfl]
    · have hname : name ∈ names rest := List.mem_map_of_mem hmem
      rw [if_neg (by rintro rfl; exact hk hname), ih hrest hmem]

end Bindings

namespace Value

/-! ### Items and entries -/

theorem eqItems_iff {as bs : List Value} :
    eqItems as bs = true ↔ List.Forall₂ (fun a b => a.eq b = true) as bs := by
  induction as generalizing bs with
  | nil => cases bs <;> simp [eqItems]
  | cons a as ih => cases bs <;> simp [eqItems, ih]

theorem eqEntries_iff {as bs : List (String × Value)} :
    eqEntries as bs = true ↔ ∀ p ∈ as, ∃ v, Bindings.get? bs p.1 = some v ∧ p.2.eq v = true := by
  induction as with
  | nil => simp [eqEntries]
  | cons p as ih =>
    obtain ⟨k, a⟩ := p
    rw [eqEntries, Bool.and_eq_true, ih, List.forall_mem_cons]
    cases Bindings.get? bs k <;> simp

theorem eq_array {as bs : List Value} :
    (array as).eq (array bs) = true ↔ List.Forall₂ (fun a b => a.eq b = true) as bs := by
  rw [eq, eqItems_iff]

theorem eq_map {as bs : List (String × Value)} :
    (map as).eq (map bs) = true ↔ as.length = bs.length ∧
      ∀ p ∈ as, ∃ v, Bindings.get? bs p.1 = some v ∧ p.2.eq v = true := by
  rw [eq, Bool.and_eq_true, beq_iff_eq, eqEntries_iff]

theorem forall₂_symm {as bs : List Value} (h : List.Forall₂ (fun a b => a.eq b = true) as bs)
    (hsymm : ∀ a ∈ as, ∀ {b : Value}, a.eq b = true → b.eq a = true) :
    List.Forall₂ (fun a b => a.eq b = true) bs as := by
  induction h with
  | nil => exact .nil
  | cons hab _ ih =>
    obtain ⟨ha, has⟩ := List.forall_mem_cons.1 hsymm
    exact .cons (ha hab) (ih has)

theorem forall₂_trans {as bs cs : List Value}
    (hab : List.Forall₂ (fun a b => a.eq b = true) as bs)
    (hbc : List.Forall₂ (fun a b => a.eq b = true) bs cs)
    (htrans : ∀ a ∈ as, ∀ {b c : Value}, c ∈ cs → a.eq b = true → b.eq c = true →
      a.eq c = true) : List.Forall₂ (fun a b => a.eq b = true) as cs := by
  induction hab generalizing cs with
  | nil => exact hbc
  | cons hab _ ih =>
    cases hbc with
    | cons hbc hrest =>
      obtain ⟨ha, has⟩ := List.forall_mem_cons.1 htrans
      exact .cons (ha List.mem_cons_self hab hbc)
        (ih hrest fun a h _ _ hc => has a h (List.mem_cons_of_mem _ hc))

/-- Maps that are equal have the same names. -/
theorem names_perm {as bs : Bindings Value} (hnodup : as.names.Nodup)
    (hlength : as.length = bs.length) (h : ∀ p ∈ as, ∃ v, bs.get? p.1 = some v ∧ p.2.eq v = true) :
    as.names.Perm bs.names := by
  refine (hnodup.subperm fun name hname => ?_).perm_of_length_le ?_
  · obtain ⟨p, hp, rfl⟩ := List.mem_map.1 hname
    obtain ⟨v, hv, -⟩ := h p hp
    exact Bindings.mem_names_iff.2 ⟨v, hv⟩
  · rw [Bindings.names, Bindings.names, List.length_map, List.length_map, hlength]

/-! ### Proper values -/

/-- A value without not-a-number, whose integers are of a given kind. The keys of a map differ. -/
inductive IsProper (kind : Int64 → Prop) : Value → Prop
  | null : IsProper kind .null
  | bool (t : Bool) : IsProper kind (.bool t)
  | int {n : Int64} (h : kind n) : IsProper kind (.int n)
  | float {x : Float} (h : x.isNaN = false) : IsProper kind (.float x)
  | str (s : String) : IsProper kind (.str s)
  | raw (s : String) : IsProper kind (.raw s)
  | array {items : List Value} (h : ∀ v ∈ items, IsProper kind v) : IsProper kind (.array items)
  | map {entries : List (String × Value)} (hnodup : (Bindings.names entries).Nodup)
    (h : ∀ p ∈ entries, IsProper kind p.2) : IsProper kind (.map entries)
  | host (type : String) (id : Nat) (text : String) (state : Value) :
    IsProper kind (.host type id text state)

variable {kind : Int64 → Prop} {a b c : Value}

/-- A proper value is equal to itself. -/
theorem IsProper.eq_self (h : IsProper kind a) : a.eq a = true := by
  induction h with
  | null => rfl
  | bool | str | raw | int | host => simp [eq]
  | float h => rw [eq, Double.beq_eq, Double.order_self h]; rfl
  | array _ ih => exact eq_array.2 (List.forall₂_same.2 ih)
  | map hnodup _ ih =>
    exact eq_map.2 ⟨rfl, fun p hp => ⟨p.2, Bindings.get?_of_mem hnodup hp, ih p hp⟩⟩

/-- Equality looks the same from both sides. -/
theorem IsProper.eq_symm (h : IsProper kind a) (heq : a.eq b = true) : b.eq a = true := by
  induction h generalizing b with
  | null => cases b <;> simp_all [eq]
  | bool | int | str | raw | host => cases b <;> simp_all [eq]
  | float h => cases b <;> simp_all [eq, Double.beq_comm]
  | array _ ih =>
    cases b with
    | array bs => exact eq_array.2 (forall₂_symm (eq_array.1 heq) fun a ha _ h => ih a ha h)
    | _ => simp [eq] at heq
  | @map as hnodup _ ih =>
    cases b with
    | map bs =>
      obtain ⟨hlength, hentries⟩ := eq_map.1 heq
      have hperm := names_perm hnodup hlength hentries
      refine eq_map.2 ⟨hlength.symm, fun q hq => ?_⟩
      -- Each entry of the other map stands under a name of this one, and only once.
      obtain ⟨v, hv⟩ := Bindings.mem_names_iff.1 (hperm.mem_iff.2 (List.mem_map_of_mem hq))
      obtain ⟨u, hu, heq⟩ := hentries _ (Bindings.mem_of_get? hv)
      have hq := Bindings.get?_of_mem (hperm.nodup_iff.1 hnodup) hq
      exact ⟨v, hv, ih _ (Bindings.mem_of_get? hv) (Option.some.inj (hq.symm.trans hu) ▸ heq)⟩
    | _ => simp [eq] at heq

/-! ### Numbers -/

/-- A number as a double. -/
def double? : Value → Option Float
  | int n => some (toDouble n)
  | float x => some x
  | _ => none

/-- Numbers that are equal are equal as doubles. -/
theorem beq_of_eq {x : Float} (ha : a.double? = some x) (h : a.eq b = true) :
    ∃ y, b.double? = some y ∧ (x == y) = true := by
  cases a with
  | int m =>
    cases ha
    cases b with
    | int n =>
      rw [eq, beq_iff_eq] at h
      exact ⟨_, rfl, Double.toDouble_beq_iff.2 (by rw [h])⟩
    | float y => exact ⟨y, rfl, by rwa [eq] at h⟩
    | _ => simp [eq] at h
  | float x =>
    cases ha
    cases b with
    | int n => exact ⟨_, rfl, by rwa [eq, Double.beq_comm] at h⟩
    | float y => exact ⟨y, rfl, by rwa [eq] at h⟩
    | _ => simp [eq] at h
  | _ => cases ha

/-- Rounding to doubles keeps the integers of a kind apart. -/
def KeptApart (kind : Int64 → Prop) : Prop :=
  ∀ m n, kind m → kind n → Double.rounded m.toInt = Double.rounded n.toInt → m = n

/-- Numbers that are equal as doubles are equal, if no two integers have the same double. -/
theorem IsProper.eq_of_beq {x y : Float} (hkind : KeptApart kind) (ha : IsProper kind a)
    (hb : IsProper kind b) (hx : a.double? = some x) (hy : b.double? = some y)
    (h : (x == y) = true) : a.eq b = true := by
  cases ha with
  | int hm =>
    cases hx
    cases hb with
    | int hn =>
      cases hy
      rw [eq, beq_iff_eq]
      exact hkind _ _ hm hn (Double.toDouble_beq_iff.1 h)
    | float => cases hy; rwa [eq]
    | _ => cases hy
  | float =>
    cases hx
    cases hb with
    | int => cases hy; rwa [eq, Double.beq_comm]
    | float => cases hy; rwa [eq]
    | _ => cases hy
  | _ => cases hx

theorem IsProper.eq_trans_of_double (hkind : KeptApart kind) (ha : IsProper kind a)
    (hc : IsProper kind c) {x : Float} (hx : a.double? = some x) (hab : a.eq b = true)
    (hbc : b.eq c = true) : a.eq c = true := by
  obtain ⟨y, hy, hxy⟩ := beq_of_eq hx hab
  obtain ⟨z, hz, hyz⟩ := beq_of_eq hy hbc
  exact ha.eq_of_beq hkind hc hx hz (PartialEquivBEq.trans hxy hyz)

/-- What is equal to the same value is equal, if no two integers have the same double. -/
theorem IsProper.eq_trans (hkind : KeptApart kind) (ha : IsProper kind a) (hc : IsProper kind c)
    (hab : a.eq b = true) (hbc : b.eq c = true) : a.eq c = true := by
  induction ha generalizing b c with
  | null | bool | str | raw | host => cases b <;> cases c <;> simp_all [eq]
  | int hm => exact (IsProper.int hm).eq_trans_of_double hkind hc rfl hab hbc
  | float hx => exact (IsProper.float hx).eq_trans_of_double hkind hc rfl hab hbc
  | array _ ih =>
    cases b with
    | array bs =>
      cases hc with
      | array hcs =>
        exact eq_array.2 (forall₂_trans (eq_array.1 hab) (eq_array.1 hbc)
          fun a ha _ _ hc => ih a ha (hcs _ hc))
      | _ => simp [eq] at hbc
    | _ => simp [eq] at hab
  | map _ _ ih =>
    cases b with
    | map bs =>
      cases hc with
      | map hnodup hcs =>
        obtain ⟨hlength, hentries⟩ := eq_map.1 hab
        obtain ⟨hlength', hentries'⟩ := eq_map.1 hbc
        refine eq_map.2 ⟨hlength.trans hlength', fun p hp => ?_⟩
        obtain ⟨v, hv, heq⟩ := hentries p hp
        obtain ⟨u, hu, heq'⟩ := hentries' _ (Bindings.mem_of_get? hv)
        exact ⟨u, hu, ih p hp (hcs _ (Bindings.mem_of_get? hu)) heq heq'⟩
      | _ => simp [eq] at hbc
    | _ => simp [eq] at hab

/-! ### Equality of numbers -/

/-- An integer is equal to the doubles that are the rounded integer. -/
theorem eq_int_float_iff {n : Int64} {x : Float} :
    (int n).eq (float x) = true ↔ Double.value? x = some (Double.rounded n.toInt : ℚ) := by
  rw [eq, Double.beq_eq, beq_iff_eq, Double.order_eq_some_eq_iff (Double.value?_toDouble n)]

theorem keptApart_of_le (hle : ∀ n, kind n → n.toInt.natAbs ≤ 2 ^ 53) : KeptApart kind := by
  intro m n hm hn h
  rwa [Double.rounded_of_le (hle m hm), Double.rounded_of_le (hle n hn), Int64.toInt_inj] at h

/-- Equality is an equivalence relation on values whose integers are of a kind if no two integers
of the kind have the same double. -/
theorem equivalence_iff (kind : Int64 → Prop) :
    Equivalence (fun a b : {v : Value // v.IsProper kind} => a.1.eq b.1 = true) ↔
      KeptApart kind := by
  refine ⟨fun h m n hm hn heq => ?_, fun h => ?_⟩
  · let u : {v : Value // v.IsProper kind} := ⟨int m, .int hm⟩
    let v : {v : Value // v.IsProper kind} := ⟨int n, .int hn⟩
    let between : {v : Value // v.IsProper kind} :=
      ⟨float (toDouble m), .float (Double.isNaN_toDouble m)⟩
    have hu : u.1.eq between.1 = true := eq_int_float_iff.2 (Double.value?_toDouble m)
    have hv : v.1.eq between.1 = true :=
      eq_int_float_iff.2 (by rw [Double.value?_toDouble, heq])
    have huv : (int m).eq (int n) = true := h.trans hu (h.symm hv)
    rwa [eq, beq_iff_eq] at huv
  · exact ⟨fun a => a.2.eq_self, fun {a _} hab => a.2.eq_symm hab,
      fun {a _ c} hab hbc => a.2.eq_trans h c.2 hab hbc⟩

end Value

namespace Frame

variable {f : Frame} {x y : UInt32} {a b : Value}

/-- The instructions that compare two registers for equality. -/
structure Compares (f : Frame) (x y : UInt32) (equal : Bool) : Prop where
  equals : f.Sets ⟨.equals, x, y⟩ (.bool equal)
  notEquals : f.Sets ⟨.notEquals, x, y⟩ (.bool !equal)
  test : f.Sets ⟨.test, x, y⟩ (.bool equal)

theorem compares (ha : f.registers[x.toNat]? = some a) (hb : f.registers[y.toNat]? = some b) :
    f.Compares x y (a.eq b) where
  equals := sets_equals ha hb
  notEquals := fun _ _ _ => action_binary .notEquals rfl rfl ha hb
  test := fun _ _ _ => action_test rfl rfl ha hb

end Frame

namespace Value

/-- The instructions compute one relation. It is reflexive and symmetric on proper values, and
an equivalence relation exactly if no two of their integers have the same double, as is the case
up to `2 ^ 53`. An integer is equal to the doubles that are the integer rounded to 53 bits. -/
theorem eq_laws (kind : Int64 → Prop) :
    (∀ {f : Frame} {x y : UInt32} {a b : Value}, f.registers[x.toNat]? = some a →
      f.registers[y.toNat]? = some b → f.Compares x y (a.eq b)) ∧
    (∀ {a b : Value}, a.IsProper kind → a.eq a = true ∧ (a.eq b = true → b.eq a = true)) ∧
    (Equivalence (fun a b : {v : Value // v.IsProper kind} => a.1.eq b.1 = true) ↔
      KeptApart kind) ∧
    ((∀ n, kind n → n.toInt.natAbs ≤ 2 ^ 53) → KeptApart kind) ∧
    ∀ {n : Int64} {x : Float},
      (int n).eq (float x) = true ↔ Double.value? x = some (Double.rounded n.toInt : ℚ) :=
  ⟨Frame.compares, fun h => ⟨h.eq_self, h.eq_symm⟩, equivalence_iff kind, keptApart_of_le,
    eq_int_float_iff⟩

theorem eq_laws_exact :
    (Frame.holding #[.int 2, .float 2]).Compares 0 1 ((int 2).eq (float 2)) ∧
    ((array [.int 2]).eq (array [.int 2]) = true ∧
      (array [.float 2]).eq (array [.int 2]) = true) ∧
    Equivalence fun a b : {v : Value // v.IsProper fun n => n.toInt.natAbs ≤ 2 ^ 53} =>
      a.1.eq b.1 = true := by
  obtain ⟨hcompares, hlaws, hequivalence, hapart, -⟩ := eq_laws fun n => n.toInt.natAbs ≤ 2 ^ 53
  have hproper : (array [.int 2]).IsProper fun n => n.toInt.natAbs ≤ 2 ^ 53 :=
    .array (List.forall_mem_singleton.2 (.int (by decide)))
  obtain ⟨hself, hsymm⟩ := hlaws hproper
  exact ⟨hcompares rfl rfl, ⟨hself, hsymm (by decide +kernel)⟩,
    hequivalence.2 (hapart fun _ h => h)⟩

/-- Two integers are equal to the same double, and so equality is no equivalence relation on all
values without not-a-number. -/
theorem eq_not_transitive :
    ((int 9007199254740992).eq (float 9007199254740992) = true ∧
      (float 9007199254740992).eq (int 9007199254740993) = true ∧
      (int 9007199254740992).eq (int 9007199254740993) = false) ∧
    ¬Equivalence fun a b : {v : Value // v.IsProper fun _ => True} => a.1.eq b.1 = true := by
  have hfirst : (int 9007199254740992).eq (float 9007199254740992) = true := by decide +kernel
  have hsecond : (float 9007199254740992).eq (int 9007199254740993) = true := by decide +kernel
  have hthird : (int 9007199254740992).eq (int 9007199254740993) = false := by decide +kernel
  refine ⟨⟨hfirst, hsecond, hthird⟩, fun h => ?_⟩
  let a : {v : Value // v.IsProper fun _ => True} := ⟨int 9007199254740992, .int trivial⟩
  let b : {v : Value // v.IsProper fun _ => True} :=
    ⟨float 9007199254740992, .float (by decide +kernel)⟩
  let c : {v : Value // v.IsProper fun _ => True} := ⟨int 9007199254740993, .int trivial⟩
  have hac : a.1.eq c.1 = true := @Equivalence.trans _ _ h a b c hfirst hsecond
  rw [hthird] at hac
  cases hac

end Value

end Stencil
