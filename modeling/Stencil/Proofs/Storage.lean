import Stencil.Bytecode.Codec
import Stencil.Proofs.Numbering
import Stencil.Proofs.Spelling

/-!
# Programs that are stored and read back

A program that is written as bytes is read back as the same program, with nothing but the hint
gone, and bytes behind it do not matter. No part of its bytes is read as a program.

* `Program.IsAddressable`: a program whose lengths are numbers of 64 bits, as in any memory;
* `Program.spells`: the bytes of a program spell it;
* `Program.ofBytes_toBytes`: valid programs are read back;
* `Program.ofBytes_of_prefix`: a proper part of a program is no program.
-/

namespace Stencil

open Bytes

/-! ### Instructions, constants and sources -/

theorem Opcode.index_lt (op : Opcode) : op.index < 2 ^ 32 := by cases op <;> decide

theorem Instruction.spells (i : Instruction) : Spells Instruction.read i i.toBytes := by
  obtain ⟨op, a, b⟩ := i
  simp only [toBytes, List.append_assoc]
  refine (spells_readNat32 op.index_lt).bind ?_
  simp only [Opcode.ofIndex?_index]
  refine (spells_readNat32 a.toNat_lt).bind ?_
  dsimp only
  refine (spells_readNat32 b.toNat_lt).map fun rest => ?_
  simp only [UInt32.ofNat_toNat]
  rfl

/-- A constant is read back if its text is no longer than 64 bits can tell. -/
theorem Constant.spells (c : Constant) (h : ∀ s ∈ c.text?, s.utf8ByteSize < 2 ^ 64) :
    Spells Constant.read c c.toBytes := by
  cases c with
  | str s =>
    refine (spells_variant (n := 0) (by decide)).bind ?_
    exact (spells_readText (h s rfl)).map fun _ => rfl
  | int n =>
    have hzigzag : zigzag n.toInt < 2 ^ 64 := zigzag_lt n.le_toInt n.toInt_lt
    refine (spells_variant (n := 1) (by decide)).bind ?_
    refine (spells_readNat64 hzigzag).map fun _ => ?_
    simp only [unzigzag_zigzag, Int64.ofInt_toInt]
    rfl
  | float bits =>
    refine (spells_variant (n := 2) (by decide)).bind ?_
    exact (spells_readWord bits).map fun _ => rfl

/-- The text that is stored for a source: all of a template, or its path. -/
def Source.stored? : Source → Option String
  | text s => some s
  | file path => some path
  | anonymous => none

/-- A source is read back if its text is no longer than 64 bits can tell. -/
theorem Source.spells (s : Source) (h : ∀ t ∈ s.stored?, t.utf8ByteSize < 2 ^ 64) :
    Spells Source.read s s.toBytes := by
  cases s with
  | text s =>
    refine (spells_variant (n := 0) (by decide)).bind ?_
    exact (spells_readText (h s rfl)).map fun _ => rfl
  | file path =>
    refine (spells_variant (n := 1) (by decide)).bind ?_
    exact (spells_readText (h path rfl)).map fun _ => rfl
  | anonymous => exact (spells_variant (n := 2) (by decide)).map fun _ => rfl

namespace Program

theorem spells_readLine (line : UInt32) : Spells readLine line (writeNat line.toNat) := by
  refine (spells_readNat32 line.toNat_lt).map fun _ => ?_
  simp only [UInt32.ofNat_toNat]
  rfl

/-! ### Programs -/

/-- The lists and texts of a program have lengths that are numbers of 64 bits. No memory holds
longer ones. -/
structure IsAddressable (p : Program) : Prop where
  instructions : p.instructions.size < 2 ^ 64
  pool : p.pool.size < 2 ^ 64
  lines : p.lines.size < 2 ^ 64
  texts : ∀ c ∈ p.pool, ∀ s ∈ c.text?, s.utf8ByteSize < 2 ^ 64
  source : ∀ s ∈ p.source.stored?, s.utf8ByteSize < 2 ^ 64

/-- The bytes of a program spell it, but for its hint. -/
theorem spells {p : Program} (h : p.IsAddressable) :
    Spells read { p with outputHint := 0 } p.toBytes := by
  simp only [toBytes, List.append_assoc]
  refine (spells_readList (fun i _ => i.spells) h.instructions).bind ?_
  dsimp only
  refine (spells_readList (fun c hc => c.spells (h.texts c (Array.mem_toList_iff.1 hc)))
    h.pool).bind ?_
  dsimp only
  refine (spells_readList (fun line _ => spells_readLine line) h.lines).bind ?_
  dsimp only
  refine (p.source.spells h.source).bind ?_
  dsimp only
  refine (spells_readNat64 p.registerCount.toNat_lt).bind ?_
  dsimp only
  refine (spells_readNat64 p.loopDepth.toNat_lt).map fun rest => ?_
  simp only [Array.toArray_toList, UInt64.ofNat_toNat]
  rfl

/-- The hint does not matter to the check of a program. -/
theorem validate_withHint (p : Program) (hint : Nat) :
    { p with outputHint := hint }.validate = p.validate := by
  have hfrom (is : List Instruction) (pc : Nat) :
      { p with outputHint := hint }.checkFrom pc is = p.checkFrom pc is := by
    induction is generalizing pc with
    | nil => rfl
    | cons i is ih =>
      rw [checkFrom, checkFrom, ih]
      rfl
  simp only [validate, hfrom]

/-- Bytes are accepted if and only if they begin with a valid program. -/
theorem ofBytes_eq_ok {bytes : List UInt8} {p : Program} :
    ofBytes bytes = .ok p ↔ (∃ rest, read bytes = .ok (p, rest)) ∧ p.validate = .ok () := by
  unfold ofBytes
  split
  · next hread => simp [hread]
  · next q rest hread =>
    rw [hread]
    split
    · next hq =>
      refine ⟨nofun, ?_⟩
      rintro ⟨⟨_, ⟨⟩⟩, hp⟩
      rw [hq] at hp
      cases hp
    · next hq =>
      refine ⟨?_, ?_⟩
      · rintro ⟨⟩
        exact ⟨⟨rest, rfl⟩, hq⟩
      · rintro ⟨⟨_, ⟨⟩⟩, -⟩
        rfl

/-- Programs with the same bytes are the same but for their hints. -/
theorem eq_of_toBytes_eq {p q : Program} (hp : p.IsAddressable) (hq : q.IsAddressable)
    (h : q.toBytes = p.toBytes) : { q with outputHint := 0 } = { p with outputHint := 0 } := by
  have hread := (spells hq).whole []
  rw [h, (spells hp).whole []] at hread
  exact (congrArg Prod.fst (Except.ok.inj hread)).symm

/-- The bytes of a valid program are read back as the program without its hint, whatever follows
them, so that no other valid program has the same bytes. -/
theorem ofBytes_toBytes {p : Program} (hp : p.validate = .ok ()) (hsize : p.IsAddressable) :
    (∀ rest, ofBytes (p.toBytes ++ rest) = .ok { p with outputHint := 0 }) ∧
      ∀ q : Program, q.validate = .ok () → q.IsAddressable → q.toBytes = p.toBytes →
        { q with outputHint := 0 } = { p with outputHint := 0 } := by
  refine ⟨fun rest => ?_, fun q _ hq => eq_of_toBytes_eq hsize hq⟩
  exact ofBytes_eq_ok.2 ⟨⟨rest, (spells hsize).whole rest⟩, (p.validate_withHint 0).trans hp⟩

/-- A program with constants of all kinds, which has been rendered. -/
def signed : Program where
  instructions := #[⟨.loadConst, 0, 1⟩, ⟨.append, 0, 0⟩, ⟨.loadConst, 0, 2⟩, ⟨.append, 0, 0⟩,
    ⟨.appendText, 0, 0⟩, ⟨.finish, 0, 0⟩]
  pool := #[.str "€", .int (-9223372036854775808), .float 0xFFF8000000000001]
  lines := #[1, 1, 2, 2, 300, 300]
  registerCount := 1
  loopDepth := 0
  source := .file "prices/€.tpl"
  outputHint := 27

theorem isAddressable_signed : signed.IsAddressable where
  instructions := by decide
  pool := by decide
  lines := by decide
  texts := by decide
  source := by decide

theorem ofBytes_toBytes_signed :
    signed.validate = .ok () ∧ signed.IsAddressable ∧
      (∀ rest, ofBytes (signed.toBytes ++ rest) = .ok { signed with outputHint := 0 }) ∧
      ∀ q : Program, q.validate = .ok () → q.IsAddressable → q.toBytes = signed.toBytes →
        { q with outputHint := 0 } = { signed with outputHint := 0 } :=
  ⟨by decide, isAddressable_signed, ofBytes_toBytes (by decide) isAddressable_signed⟩

/-! ### Programs that have been cut -/

/-- A part of a program, which has lost at least its last byte, is no program: the bytes end too
early, and nothing else is said about them. -/
theorem ofBytes_of_prefix {p : Program} (hsize : p.IsAddressable) {part : List UInt8}
    (hpart : part <+: p.toBytes) (hne : part ≠ p.toBytes) :
    ∃ e, ofBytes part = .error e ∧ e = .read .endOfBytes ∧
      e.message = "Hit the end of buffer, expected more data" := by
  refine ⟨.read .endOfBytes, ?_, rfl, rfl⟩
  rw [ofBytes, (spells hsize).cut hpart hne]

/-- The cut is inside the only character of the text. -/
theorem ofBytes_signed_of_prefix :
    signed.IsAddressable ∧ signed.toBytes.take 24 <+: signed.toBytes ∧
      signed.toBytes.take 24 ≠ signed.toBytes ∧
      ∃ e, ofBytes (signed.toBytes.take 24) = .error e ∧ e = .read .endOfBytes ∧
        e.message = "Hit the end of buffer, expected more data" := by
  have hpart : signed.toBytes.take 24 <+: signed.toBytes := List.take_prefix 24 _
  have hne : signed.toBytes.take 24 ≠ signed.toBytes := by decide +kernel
  exact ⟨isAddressable_signed, hpart, hne, ofBytes_of_prefix isAddressable_signed hpart hne⟩

end Program

end Stencil
