import Mathlib.Data.List.Induction
import Stencil.Proofs.Instructions

/-!
# Map literals

A map literal writes its pairs one after the other under the texts of their keys. The map has the
texts in the order of their first occurrences, and under each text the value that was written
last. Indexing, the methods of maps and loops all read this one table.

* `Bindings.names_ofPairs`, `Bindings.get?_ofPairs`: a table that was written pair by pair;
* `Value.mapOf_inTurn`: the map of a literal is such a table;
* `Frame.Hands`, `Frame.Walks`: the items that a loop hands out;
* `Value.Reads`: what can be read from a map, in all ways;
* `Frame.literal_agrees`: the map of a literal, and what is read from it.
-/

namespace Stencil

/-! ### Tables written pair by pair -/

namespace Bindings
variable {α : Type}

theorem setAll_concat (b : Bindings α) (pairs : List (String × α)) (p : String × α) :
    setAll b (pairs ++ [p]) = set (setAll b pairs) p.1 p.2 := by
  rw [setAll, List.foldl_append]
  rfl

theorem ofPairs_concat (pairs : List (String × α)) (p : String × α) :
    ofPairs (pairs ++ [p]) = set (ofPairs pairs) p.1 p.2 := setAll_concat [] pairs p

/-- The names are in the order of their first occurrences. -/
theorem names_ofPairs (pairs : List (String × α)) :
    names (ofPairs pairs) = (pairs.map Prod.fst).eraseDups := by
  induction pairs using List.reverseRecOn with
  | nil => rfl
  | append_singleton pairs p ih =>
    rw [ofPairs_concat, names_set, ih, List.map_append, List.eraseDups_append]
    by_cases h : p.1 ∈ pairs.map Prod.fst
    · simp [List.removeAll, h]
    · rw [if_neg (mt List.mem_eraseDups.1 h)]
      simp [List.removeAll, List.eraseDups_cons, h]

theorem nodup_names_ofPairs (pairs : List (String × α)) : (names (ofPairs pairs)).Nodup := by
  induction pairs using List.reverseRecOn with
  | nil => exact List.nodup_nil
  | append_singleton pairs p ih =>
    rw [ofPairs_concat]
    exact nodup_names_set ih p.1 p.2

theorem length_names_ofPairs_le (pairs : List (String × α)) :
    (names (ofPairs pairs)).length ≤ pairs.length := by
  induction pairs using List.reverseRecOn with
  | nil => exact Nat.le_refl _
  | append_singleton pairs p ih =>
    rw [ofPairs_concat, names_set, List.length_append]
    split
    · exact Nat.le_succ_of_le ih
    · rw [List.length_append]
      exact Nat.succ_le_succ ih

/-- The value of a name is the one that was written last. -/
theorem get?_ofPairs (pairs : List (String × α)) (name : String) :
    get? (ofPairs pairs) name = (pairs.filter (·.1 == name)).getLast?.map Prod.snd := by
  induction pairs using List.reverseRecOn with
  | nil => rfl
  | append_singleton pairs p ih =>
    rw [ofPairs_concat, List.filter_append, List.getLast?_append]
    by_cases h : p.1 = name
    · subst h
      simp
    · rw [get?_set_of_ne _ _ (Ne.symm h), ih]
      simp [h]

/-- The values of a table stand in the order of its names. -/
theorem map_snd_eq {b : Bindings α} (h : (names b).Nodup) (default : α) :
    b.map Prod.snd = (names b).map fun name => (get? b name).getD default := by
  induction b with
  | nil => rfl
  | cons p rest ih =>
    obtain ⟨k, v⟩ := p
    obtain ⟨hk, hrest⟩ := List.nodup_cons.1 h
    have hget : ∀ name ∈ names rest, get? ((k, v) :: rest) name = get? rest name := by
      intro name hname
      rw [get?_cons, if_neg (by rintro rfl; exact hk hname)]
    have hnames : names ((k, v) :: rest) = k :: names rest := rfl
    rw [hnames, List.map_cons, List.map_cons, get?_cons, if_pos rfl, ih hrest]
    congr 1
    exact List.map_congr_left fun name hname => by rw [hget name hname]

end Bindings

/-! ### The map of a literal -/

namespace Value

/-- Keys and values, which take turns. -/
def inTurn (pairs : List (Value × Value)) : List Value := pairs.flatMap fun p => [p.1, p.2]

/-- The value of the last pair whose key has the given text. -/
def latest? (pairs : List (Value × Value)) (name : String) : Option Value :=
  (pairs.filter (·.1.text == name)).getLast?.map Prod.snd

/-- The table that the pairs of a literal make. -/
def written (pairs : List (Value × Value)) : Bindings Value :=
  .ofPairs (pairs.map fun p => (p.1.text, p.2))

theorem length_inTurn (pairs : List (Value × Value)) :
    (inTurn pairs).length = 2 * pairs.length := by
  induction pairs with
  | nil => rfl
  | cons p rest ih =>
    rw [inTurn, List.flatMap_cons, List.length_append, ← inTurn, ih, List.length_cons]
    simp only [List.length_cons, List.length_nil]
    omega

theorem addPairs_inTurn (entries : Bindings Value) (pairs : List (Value × Value)) :
    addPairs entries (inTurn pairs) =
      if pairs.any (·.1.isNull) then .error .nullKey
      else .ok (entries.setAll (pairs.map fun p => (p.1.text, p.2))) := by
  induction pairs generalizing entries with
  | nil => rfl
  | cons p rest ih =>
    rw [inTurn, List.flatMap_cons, ← inTurn, List.cons_append, List.singleton_append, addPairs, ih,
      List.any_cons]
    by_cases h : p.1.isNull
    · rw [if_pos h, h, Bool.true_or, if_pos rfl]
    · rw [if_neg h, Bool.eq_false_iff.2 h, Bool.false_or]
      rfl

theorem mapOf_inTurn (pairs : List (Value × Value)) :
    mapOf (inTurn pairs) =
      if pairs.any (·.1.isNull) then .error .nullKey else .ok (.map (written pairs)) := by
  rw [mapOf, addPairs_inTurn]
  split <;> rfl

theorem names_written (pairs : List (Value × Value)) :
    (written pairs).names = (pairs.map (·.1.text)).eraseDups := by
  rw [written, Bindings.names_ofPairs, List.map_map]
  rfl

theorem get?_written (pairs : List (Value × Value)) (name : String) :
    (written pairs).get? name = latest? pairs name := by
  rw [written, Bindings.get?_ofPairs, List.filter_map, List.getLast?_map, Option.map_map]
  rfl

end Value

/-! ### Loops -/

namespace Frame

/-- The innermost loop goes on: each time the program comes to its instruction, the next item is
put into a register, and after the last one the program goes on behind it. -/
inductive Hands : LoopRecord → List Value → Prop
  | done {l k : LoopRecord}
    (h : ∀ {σ : Type} (ctx : Context σ) (f : Frame) (w : World σ) {x target : UInt32},
      f.program.instructions[f.pc]? = some ⟨.iterNext, x, target⟩ → f.loops.head? = some l →
      x.toNat < f.registers.size →
      ∃ w', f.step ctx w = .next ({ f with loops := k :: f.loops.tail }).advance w') :
    Hands l []
  | next {l k : LoopRecord} {item : Value} {items : List Value}
    (h : ∀ {σ : Type} (ctx : Context σ) (f : Frame) (w : World σ) {x target : UInt32},
      f.program.instructions[f.pc]? = some ⟨.iterNext, x, target⟩ → f.loops.head? = some l →
      x.toNat < f.registers.size →
      ∃ w', f.step ctx w =
        .next (({ f.put x.toNat item with loops := k :: f.loops.tail }).goto target.toNat) w')
    (hands : Hands k items) : Hands l (item :: items)

theorem hands (index : Nat) (items : List Value) : Hands ⟨index, items⟩ items := by
  induction items generalizing index with
  | nil =>
    refine .done (k := ⟨index + 1, []⟩) fun ctx f w x target hi hl hx => ?_
    obtain ⟨ls, hls⟩ := List.head?_eq_some_iff.1 hl
    exact ⟨_, step_of_ok hi (action_iterNext rfl rfl hls hx)⟩
  | cons item items ih =>
    refine .next (fun ctx f w x target hi hl hx => ?_) (ih (index + 1))
    obtain ⟨ls, hls⟩ := List.head?_eq_some_iff.1 hl
    exact ⟨_, step_of_ok hi (action_iterNext rfl rfl hls hx)⟩

/-- A loop along the value hands out the items: the first one is put into the register when the
loop is entered, and the others follow. -/
def Walks (v : Value) (items : List Value) : Prop :=
  ∀ {σ : Type} (ctx : Context σ) (f : Frame) (w : World σ) {x target : UInt32},
    f.program.instructions[f.pc]? = some ⟨.iterStart, x, target⟩ →
    f.registers[x.toNat]? = some v →
    match items with
    | [] => ∃ w', f.step ctx w = .next (f.goto target.toNat) w'
    | first :: rest => ∃ l w', f.step ctx w =
        .next ({ f.put x.toNat first with loops := l :: f.loops }).advance w' ∧ Hands l rest

theorem walks_of_items {v : Value} {items : List Value} (h : ∀ hosts, v.items hosts = .ok items) :
    Walks v items := by
  intro σ ctx f w x target hi hv
  have haction : f.action ctx.hosts ctx.functions w.vars ⟨.iterStart, x, target⟩ = _ :=
    action_iterStart rfl rfl hv
  rw [h] at haction
  cases items with
  | nil => exact ⟨_, step_of_ok hi haction⟩
  | cons first rest => exact ⟨⟨0, rest⟩, _, step_of_ok hi haction, hands 0 rest⟩

/-! ### Reading maps -/

/-- An object, the name of a method and the arguments are in registers in a row. -/
structure Calls (f : Frame) (x : UInt32) (target : Value) (name : String) (args : List Value) :
    Prop where
  object : f.registers[x.toNat]? = some target
  method : f.registers[x.toNat + 1]? = some (.str name)
  arguments : HoldsRun f.registers (x.toNat + 2) args

theorem holdsRun_room {registers : Array Value} {first : Nat} {vs : List Value}
    (h : HoldsRun registers first vs) (hfirst : first ≤ registers.size) :
    first + vs.length ≤ registers.size := by
  cases hlast : vs.getLast? with
  | none =>
    rw [List.getLast?_eq_none_iff.1 hlast]
    exact hfirst
  | some v =>
    rw [List.getLast?_eq_getElem?] at hlast
    have hlt := (Array.getElem?_eq_some_iff.1 (h _ v hlast)).1
    have hpos := (List.getElem?_eq_some_iff.1 hlast).1
    omega

theorem Calls.sets {f : Frame} {x y : UInt32} {target v : Value} {name : String}
    {args : List Value} (h : f.Calls x target name args) (hcount : y.toNat = args.length)
    (hanswer : ∀ hosts, target.answer hosts name args = .ok v) : f.Sets ⟨.method, x, y⟩ v := by
  intro hosts functions vars
  have hfirst := (Array.getElem?_eq_some_iff.1 h.method).1
  rw [action_method rfl hcount h.object h.method h.arguments (holdsRun_room h.arguments hfirst),
    hanswer]
  rfl

end Frame

/-- A map has the given names and values, in whatever way it is read: by indexing, by its methods
or by a loop. -/
structure Value.Reads (entries : Bindings Value) (names : List String)
    (find? : String → Option Value) : Prop where
  member {f : Frame} {x y : UInt32} {k : Value} : f.registers[x.toNat]? = some (.map entries) →
    f.registers[y.toNat]? = some k → k.isNull = false →
    f.Sets ⟨.member, x, y⟩ ((find? k.text).getD .null)
  has {f : Frame} {x : UInt32} {k : Value} : f.Calls x (.map entries) "exists" [k] →
    k.isNull = false → f.Sets ⟨.method, x, 1⟩ (.bool (find? k.text).isSome)
  keys {f : Frame} {x : UInt32} : f.Calls x (.map entries) "keys" [] →
    f.Sets ⟨.method, x, 0⟩ (.array (names.map .str))
  values {f : Frame} {x : UInt32} : f.Calls x (.map entries) "values" [] →
    f.Sets ⟨.method, x, 0⟩ (.array (names.map fun name => (find? name).getD .null))
  size : ∃ n : Int64, n.toInt = names.length ∧ ∀ {f : Frame} {x : UInt32} {name : String},
    name ∈ ["size", "length"] → f.Calls x (.map entries) name [] →
    f.Sets ⟨.method, x, 0⟩ (.int n)
  walks : Frame.Walks (.map entries) (names.map .str)

namespace Value

theorem reads {entries : Bindings Value} (hnodup : entries.names.Nodup)
    (hsize : entries.names.length < 2 ^ 63) : Reads entries entries.names entries.get? where
  member hx hy hk := by
    intro hosts functions vars
    refine (Frame.action_binary .member rfl rfl hx hy).trans ?_
    rw [BinaryOp.apply, member, hk]
    rfl
  has h hk := h.sets rfl fun hosts => rfl
  keys h := h.sets rfl fun hosts => by
    rw [Bindings.names, List.map_map]
    rfl
  values h := h.sets rfl fun hosts => by
    rw [← Bindings.map_snd_eq hnodup]
    rfl
  size := by
    obtain ⟨n, hn, hvalue⟩ : ∃ n : Int64, ofNat? entries.names.length = some (int n) ∧
        n.toInt = entries.names.length := by
      obtain ⟨n, hn, hvalue⟩ | ⟨-, hlarge⟩ := Decimal.toWord?_cases entries.names.length
      · exact ⟨n, congrArg (Option.map int) hn, hvalue⟩
      · omega
    have hcount : count entries.length = int n := by
      rw [Bindings.names, List.length_map] at hn
      rw [count, hn]
      rfl
    refine ⟨n, hvalue, fun hname h => h.sets rfl fun hosts => ?_⟩
    rw [← hcount]
    rcases List.mem_pair.1 hname with rfl | rfl <;> rfl
  walks := Frame.walks_of_items fun hosts => by
    rw [items, Bindings.names, List.map_map]
    rfl

/-- The map of a literal has the texts of the keys, each with the value of its last pair. -/
theorem reads_written {pairs : List (Value × Value)} (h : pairs.length < 2 ^ 63) :
    Reads (written pairs) (pairs.map (·.1.text)).eraseDups (latest? pairs) := by
  have hlength := Bindings.length_names_ofPairs_le (pairs.map fun p => (p.1.text, p.2))
  rw [List.length_map] at hlength
  rw [← names_written, ← funext (get?_written pairs)]
  exact reads (Bindings.nodup_names_ofPairs _) (Nat.lt_of_le_of_lt hlength h)

end Value

namespace Frame

/-- The keys and values of a literal are in registers in a row. -/
structure HoldsPairs (f : Frame) (x y : UInt32) (pairs : List (Value × Value)) : Prop where
  count : y.toNat = pairs.length
  first : x.toNat < f.registers.size
  values : HoldsRun f.registers x.toNat (Value.inTurn pairs)
  /-- Registers have numbers of 32 bits. -/
  small : f.registers.size < operandLimit

variable {f : Frame} {x y : UInt32} {pairs : List (Value × Value)}

theorem HoldsPairs.action_map (h : f.HoldsPairs x y pairs) (hosts : HostTypes)
    (functions : Functions) (vars : Vars) :
    f.action hosts functions vars ⟨.map, x, y⟩ =
      if pairs.any (·.1.isNull) then .error (.type (.collection .nullKey))
      else .ok (.store [] x.toNat (.map (Value.written pairs))) := by
  have hcount : y.toNat = (Value.inTurn pairs).length / 2 := by
    rw [h.count, Value.length_inTurn, Nat.mul_div_cancel_left _ Nat.two_pos]
  rw [Frame.action_map rfl hcount h.values (holdsRun_room h.values (Nat.le_of_lt h.first))
    h.small h.first, mapOfPairs, Value.mapOf_inTurn]
  split <;> rfl

/-- A literal without null among its keys makes the map of the texts of the keys, and this map is
what indexing, methods and loops read. A null key is refused, and nothing has changed then. -/
theorem literal_agrees (h : f.HoldsPairs x y pairs) :
    ((∀ p ∈ pairs, p.1.isNull = false) → ∃ entries : Bindings Value,
      f.Sets ⟨.map, x, y⟩ (.map entries) ∧
      entries.names = (pairs.map (·.1.text)).eraseDups ∧
      Value.Reads entries (pairs.map (·.1.text)).eraseDups (Value.latest? pairs)) ∧
    ((∃ p ∈ pairs, p.1.isNull = true) →
      f.Refuses ⟨.map, x, y⟩ (.type (.collection .nullKey)) ∧
      ∀ {σ : Type} (ctx : Context σ) (w : World σ),
        f.program.instructions[f.pc]? = some ⟨.map, x, y⟩ →
        f.step ctx w = f.stop (w.note (.instruction f.pc .map f.loops.length))
          (.type (.collection .nullKey))) := by
  refine ⟨fun hkeys => ?_, fun hkey => ?_⟩
  · have hlength : pairs.length < 2 ^ 32 := h.count ▸ y.toNat_lt
    have hany : pairs.any (·.1.isNull) = false :=
      List.any_eq_false.2 fun p hp => Bool.not_eq_true _ ▸ hkeys p hp
    refine ⟨Value.written pairs, fun hosts functions vars => ?_, Value.names_written pairs,
      Value.reads_written (by omega)⟩
    rw [h.action_map, hany]
    rfl
  · have hrefuses : f.Refuses ⟨.map, x, y⟩ (.type (.collection .nullKey)) := by
      intro hosts functions vars
      rw [h.action_map, if_pos (List.any_eq_true.2 hkey)]
    exact ⟨hrefuses, fun ctx w hi => step_of_error hi (hrefuses ctx.hosts ctx.functions w.vars)⟩

/-- An integer and a text are the same key if they look the same. -/
theorem literal_agrees_repeated :
    (∃ entries : Bindings Value,
      (holding #[.int 1, .null, .str "1", .bool true]).Sets ⟨.map, 0, 2⟩ (.map entries) ∧
      entries.names = ["1"] ∧
      Value.Reads entries ["1"] (Value.latest? [(.int 1, .null), (.str "1", .bool true)])) ∧
    (holding #[.null, .int 1]).Refuses ⟨.map, 0, 1⟩ (.type (.collection .nullKey)) := by
  have hkeys : ([(.int 1, .null), (.str "1", .bool true)].map
      (fun p : Value × Value => p.1.text)).eraseDups = ["1"] := by decide +kernel
  have hrepeated : (holding #[.int 1, .null, .str "1", .bool true]).HoldsPairs 0 2
      [(.int 1, .null), (.str "1", .bool true)] :=
    ⟨rfl, by decide, .cons rfl (.cons rfl (.cons rfl (.cons rfl (holdsRun_nil _ _)))), by decide⟩
  have hnull : (holding #[.null, .int 1]).HoldsPairs 0 1 [(.null, .int 1)] :=
    ⟨rfl, by decide, .cons rfl (.cons rfl (holdsRun_nil _ _)), by decide⟩
  rw [← hkeys]
  exact ⟨(literal_agrees hrepeated).1 (by simp [Value.isNull]),
    ((literal_agrees hnull).2 (by simp [Value.isNull])).1⟩

end Frame

end Stencil
