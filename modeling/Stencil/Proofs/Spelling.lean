import Mathlib.Algebra.Group.Int.Defs
import Mathlib.Algebra.Group.Nat.Defs
import Stencil.Bytecode.Bytes

/-!
# Bytes that spell a value

What is written for a value is read as that value, whatever comes behind it, and no proper part of
it is read as anything: the bytes end too early, wherever they have been cut.

* `Spells`: the bytes of a value, from the point of view of a reader;
* `Spells.bind`, `Spells.map`: readers one after the other;
* `spells_readNat`, `spells_readWord`, `spells_readText`, `spells_readList`: what is written for
  numbers, words, texts and lists.
-/

namespace Stencil.Bytes

variable {α β : Type}

/-- The bytes spell `a`: before any other bytes a reader takes them off and has `a`, and of a
proper part of them it says that bytes are missing. -/
structure Spells (read : Reader α) (a : α) (bytes : List UInt8) : Prop where
  whole : ∀ rest, read (bytes ++ rest) = .ok (a, rest)
  cut : ∀ {part}, part <+: bytes → part ≠ bytes → read part = .error .endOfBytes

namespace Spells

variable {read : Reader α} {a : α} {b : β} {s t : List UInt8}
variable {f : α × List UInt8 → Except ReadError (β × List UInt8)}

theorem nil (a : α) : Spells (fun rest => .ok (a, rest)) a [] where
  whole _ := rfl
  cut hpart hne := absurd (List.prefix_nil.1 hpart) hne

/-- What is written one after the other is read one after the other. -/
theorem bind (h : Spells read a s) (h' : Spells (fun rest => f (a, rest)) b t) :
    Spells (fun bytes => read bytes >>= f) b (s ++ t) where
  whole rest := by
    rw [List.append_assoc, h.whole]
    exact h'.whole rest
  cut {part} hpart hne := by
    -- The cut is in the first part, right behind it, or in the second part.
    rcases List.prefix_or_prefix_of_prefix hpart (List.prefix_append s t) with hs | ⟨u, rfl⟩
    · by_cases heq : part = s
      · subst heq
        have hread := h.whole []
        rw [List.append_nil] at hread
        rw [hread]
        refine h'.cut List.nil_prefix fun ht => hne ?_
        rw [← ht, List.append_nil]
      · rw [h.cut hs heq]
        rfl
    · rw [h.whole]
      exact h'.cut ((List.prefix_append_right_inj s).1 hpart) fun hu => hne (by rw [hu])

/-- What has been read may be made into something else. -/
theorem map (h : Spells read a s) (hf : ∀ rest, f (a, rest) = .ok (b, rest)) :
    Spells (fun bytes => read bytes >>= f) b s := by
  rw [← List.append_nil s]
  refine h.bind ?_
  rw [funext hf]
  exact nil b

end Spells

/-! ### Numbers -/

/-- A byte below 128 is a number, if the last group allowed has room for it. -/
theorem spells_byte {top count n : Nat} (hsmall : n < 128) (hn : count = 0 → n ≤ top) :
    Spells (readNat top (count + 1)) n [UInt8.ofNat n] where
  whole rest := by
    have hbyte : (UInt8.ofNat n).toNat = n := by simp; omega
    have hfits : ¬(count = 0 ∧ top < n) := fun h => absurd (hn h.1) (by omega)
    simp [readNat, hbyte, hsmall, hfits]
  cut hpart hne := by
    rcases List.prefix_cons_iff.1 hpart with rfl | ⟨t, rfl, ht⟩
    · rfl
    · exact absurd (by rw [List.prefix_nil.1 ht]) hne

/-- A number is read back if the groups allowed have room for it. -/
theorem spells_readNat {top count n : Nat} (htop : top < 128) (hn : n < (top + 1) * 128 ^ count) :
    Spells (readNat top (count + 1)) n (writeNat n) := by
  induction count generalizing n with
  | zero =>
    rw [writeNat, if_pos (by omega)]
    exact spells_byte (by omega) fun _ => by omega
  | succ count ih =>
    rw [writeNat]
    split
    · next hsmall => exact spells_byte hsmall nofun
    · next hlarge =>
      have hbyte : (UInt8.ofNat (n % 128 + 128)).toNat = n % 128 + 128 := by simp; omega
      have hmore : ¬n % 128 + 128 < 128 := by omega
      rw [Nat.pow_succ, ← Nat.mul_assoc, Nat.mul_comm _ 128] at hn
      have hgroups := ih (Nat.div_lt_of_lt_mul hn)
      refine ⟨fun rest => ?_, fun {part} hpart hne => ?_⟩
      · rw [List.cons_append, readNat, hbyte, if_neg hmore, hgroups.whole]
        refine congrArg Except.ok (congrArg (·, rest) ?_)
        omega
      · rcases List.prefix_cons_iff.1 hpart with rfl | ⟨t, rfl, ht⟩
        · rfl
        · rw [readNat, hbyte, if_neg hmore, hgroups.cut ht fun h => hne (by rw [h])]

theorem spells_readNat32 {n : Nat} (h : n < 2 ^ 32) : Spells readNat32 n (writeNat n) :=
  spells_readNat (by decide) h

theorem spells_readNat64 {n : Nat} (h : n < 2 ^ 64) : Spells readNat64 n (writeNat n) :=
  spells_readNat (by decide) h

/-- The number of a variant takes one byte. -/
theorem spells_variant {n : Nat} (h : n < 128) : Spells readNat32 n [UInt8.ofNat n] :=
  spells_byte h nofun

@[simp] theorem unzigzag_zigzag (n : Int) : unzigzag (zigzag n) = n := by
  unfold unzigzag zigzag
  split <;> split <;> omega

theorem zigzag_lt {n : Int} (hlow : -2 ^ 63 ≤ n) (hhigh : n < 2 ^ 63) : zigzag n < 2 ^ 64 := by
  unfold zigzag
  split <;> omega

/-! ### Words -/

@[simp] theorem length_lowBytes (count n : Nat) : (lowBytes count n).length = count := by
  induction count generalizing n with
  | zero => rfl
  | succ count ih => rw [lowBytes, List.length_cons, ih]

theorem ofLowBytes_lowBytes (count n : Nat) : ofLowBytes (lowBytes count n) = n % 256 ^ count := by
  induction count generalizing n with
  | zero => simp [lowBytes, ofLowBytes, Nat.mod_one]
  | succ count ih =>
    have hbyte : (UInt8.ofNat (n % 256)).toNat = n % 256 := by simp
    rw [lowBytes, ofLowBytes, hbyte, ih, Nat.pow_succ', Nat.mod_mul]

theorem spells_take (bytes : List UInt8) : Spells (take bytes.length) bytes bytes where
  whole rest := by simp [take]
  cut {part} hpart hne := by
    have hlt : part.length < bytes.length :=
      Nat.lt_of_le_of_ne hpart.length_le fun h => hne (hpart.eq_of_length h)
    rw [take, if_neg (Nat.not_le.2 hlt)]

theorem spells_readWord (w : UInt64) : Spells readWord w (writeWord w) := by
  have htake := spells_take (writeWord w)
  rw [show (writeWord w).length = 8 from length_lowBytes 8 _] at htake
  have hword : ofLowBytes (writeWord w) = w.toNat := by
    rw [writeWord, ofLowBytes_lowBytes]
    exact Nat.mod_eq_of_lt w.toNat_lt
  refine htake.map fun rest => ?_
  simp only [hword, UInt64.ofNat_toNat]
  rfl

/-! ### Texts and lists -/

theorem fromUTF8?_toUTF8 (s : String) :
    String.fromUTF8? ⟨s.toUTF8.data.toList.toArray⟩ = some s := by
  rw [Array.toArray_toList, String.fromUTF8?, dif_pos (by exact s.isValidUTF8)]
  rfl

/-- A text is read back if its length is a number of 64 bits. A cut inside a character is a cut
before the end of the text. -/
theorem spells_readText {s : String} (h : s.utf8ByteSize < 2 ^ 64) :
    Spells readText s (writeText s) := by
  have hlength : s.toUTF8.data.toList.length = s.utf8ByteSize := by simp
  refine (spells_readNat64 (hlength ▸ h)).bind ?_
  refine (spells_take _).map fun rest => ?_
  simp only [fromUTF8?_toUTF8]
  rfl

theorem spells_readItems {read : Reader α} {write : α → List UInt8} {items : List α}
    (h : ∀ x ∈ items, Spells read x (write x)) :
    Spells (readItems read items.length) items (items.flatMap write) := by
  induction items with
  | nil => exact .nil []
  | cons x items ih =>
    rw [List.forall_mem_cons] at h
    rw [List.flatMap_cons]
    refine h.1.bind ?_
    exact (ih h.2).map fun rest => rfl

/-- A list is read back if its items are and its length is a number of 64 bits. -/
theorem spells_readList {read : Reader α} {write : α → List UInt8} {items : List α}
    (h : ∀ x ∈ items, Spells read x (write x)) (hlength : items.length < 2 ^ 64) :
    Spells (readList read) items (writeList write items) :=
  (spells_readNat64 hlength).bind (spells_readItems h)

end Stencil.Bytes
