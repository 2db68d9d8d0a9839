import Stencil.Proofs.Safety
import Stencil.Text.Escape

/-!
# Output without stray markup

If everything that is written as it is has no markup in it but entities, the output of a render has
none, whatever the values are that are escaped on their way.

* `Text.IsSafe`: a text with no markup but entities;
* `Value.IsTrusted`: the raw texts in a value, and those behind its host objects, are safe;
* `Context.IsTrusted`: all that the host application hands out is trusted;
* `Program.render_isSafe`: the output of a compiled program is safe.
-/

namespace Stencil

variable {σ : Type}

/-! ### Texts -/

namespace Text

/-- The characters that end a tag or an attribute, or begin one. -/
def delimiters : List Char := ['<', '>', '"', '\'']

/-- The entities that stand for characters with a meaning in markup. -/
def entities : List (List Char) := [entity '&', entity '<', entity '>', entity '"', entity '\'']

/-- Characters without delimiters, each ampersand among which begins an entity. -/
def AllSafe : List Char → Prop
  | [] => True
  | c :: cs => c ∉ delimiters ∧ (c = '&' → ∃ e ∈ entities, e <+: c :: cs) ∧ AllSafe cs

/-- A text without delimiters, each ampersand of which begins an entity. -/
def IsSafe (s : String) : Prop := AllSafe s.toList

instance decidableAllSafe : (cs : List Char) → Decidable (AllSafe cs)
  | [] => inferInstanceAs (Decidable True)
  | c :: cs =>
    have := decidableAllSafe cs
    inferInstanceAs (Decidable
      (c ∉ delimiters ∧ (c = '&' → ∃ e ∈ entities, e <+: c :: cs) ∧ AllSafe cs))

instance (s : String) : Decidable (IsSafe s) := inferInstanceAs (Decidable (AllSafe s.toList))

theorem AllSafe.append {cs ds : List Char} (hc : AllSafe cs) (hd : AllSafe ds) :
    AllSafe (cs ++ ds) := by
  induction cs with
  | nil => exact hd
  | cons c cs ih =>
    obtain ⟨hdelimiter, hentity, hcs⟩ := hc
    refine ⟨hdelimiter, fun hamp => ?_, ih hcs⟩
    -- An entity that begins in the first text ends there as well.
    obtain ⟨e, he, hprefix⟩ := hentity hamp
    exact ⟨e, he, hprefix.trans (List.prefix_append (c :: cs) ds)⟩

theorem allSafe_entity (c : Char) : AllSafe (entity c) := by
  cases hc : isMarkup c with
  | true =>
    simp only [isMarkup, Bool.or_eq_true, beq_iff_eq, or_assoc] at hc
    rcases hc with rfl | rfl | rfl | rfl | rfl <;> decide
  | false =>
    rw [entity_of_not_isMarkup hc]
    simp only [isMarkup, Bool.or_eq_false_iff, beq_eq_false_iff_ne, ne_eq] at hc
    obtain ⟨⟨⟨⟨hamp, hlt⟩, hgt⟩, hquot⟩, hapos⟩ := hc
    exact ⟨by simp [delimiters, hlt, hgt, hquot, hapos], fun h => absurd h hamp, trivial⟩

theorem isSafe_empty : IsSafe "" := trivial

theorem IsSafe.append {s t : String} (hs : IsSafe s) (ht : IsSafe t) : IsSafe (s ++ t) := by
  rw [IsSafe, String.toList_append]
  exact AllSafe.append hs ht

/-- An escaped text is safe. -/
theorem isSafe_escapeMarkup (s : String) : IsSafe (escapeMarkup s) := by
  rw [IsSafe, toList_escapeMarkup]
  induction s.toList with
  | nil => trivial
  | cons c cs ih =>
    rw [List.flatMap_cons]
    exact (allSafe_entity c).append ih

example : IsSafe "a &lt; b &amp;&amp; c" := by decide +kernel
example : ¬IsSafe "a &lt b" := by decide +kernel

end Text

/-! ### Values -/

/-- The raw texts in a value are safe, and its host objects, given by type and state, are as `host`
says. -/
inductive Value.IsTrusted (host : String → Value → Prop) : Value → Prop
  | null : IsTrusted host .null
  | bool (b : Bool) : IsTrusted host (.bool b)
  | int (n : Int64) : IsTrusted host (.int n)
  | float (x : Float) : IsTrusted host (.float x)
  | str (s : String) : IsTrusted host (.str s)
  | raw {s : String} (h : Text.IsSafe s) : IsTrusted host (.raw s)
  | array {items : List Value} (h : ∀ v ∈ items, IsTrusted host v) : IsTrusted host (.array items)
  | map {entries : List (String × Value)} (h : ∀ e ∈ entries, IsTrusted host e.2) :
    IsTrusted host (.map entries)
  | host {type : String} {id : Nat} {text : String} {state : Value} (h : host type state) :
    IsTrusted host (.host type id text state)

/-- All that the host application hands out is trusted, if what it is given is: the fields, the
answers and the items of its objects, and the results of its functions. Markup is escaped. -/
structure Context.IsTrusted (ctx : Context σ) (host : String → Value → Prop) : Prop where
  escape : ctx.escape = Text.escapeMarkup
  placeholder : Text.IsSafe ctx.limits.placeholder
  field : ∀ {type state name v}, host type state →
    ctx.hosts.field type state name = .ok v → v.IsTrusted host
  method : ∀ {type state name args v}, host type state → (∀ a ∈ args, Value.IsTrusted host a) →
    ctx.hosts.call type state name args = .ok v → v.IsTrusted host
  items : ∀ {type state vs}, host type state →
    ctx.hosts.items? type state = some vs → ∀ v ∈ vs, Value.IsTrusted host v
  function : ∀ {name function args v}, ctx.functions.get? name = some function →
    (∀ a ∈ args, Value.IsTrusted host a) → function args = .ok v → v.IsTrusted host

/-- Trusted values and safe texts. -/
def Policy.markup (host : String → Value → Prop) : Policy := ⟨Value.IsTrusted host, Text.IsSafe⟩

namespace Value

variable {host : String → Value → Prop}

theorem isTrusted_count (n : Nat) : (count n).IsTrusted host := by
  unfold count ofNat?
  generalize Decimal.toWord? n = word
  cases word with
  | none => exact .null
  | some word => exact .int word

theorem isTrusted_getD {v? : Option Value} (h : ∀ v ∈ v?, v.IsTrusted host) :
    (v?.getD .null).IsTrusted host := by
  cases v? with
  | none => exact .null
  | some v => exact h v rfl

theorem eq_of_answer {check : Except MemberError Unit} {u v : Value}
    (h : (do check; return u) = .ok v) : v = u := by
  cases check <;> cases h
  rfl

theorem IsTrusted.arrayMethod {target v : Value} {items : List Value} {name : String}
    {args : List Value} (hitems : ∀ v ∈ items, v.IsTrusted host)
    (h : target.arrayMethod items name args = .ok v) : v.IsTrusted host := by
  unfold Value.arrayMethod at h
  split at h
  case h_7 => cases h
  all_goals rw [eq_of_answer h]
  · exact isTrusted_count _
  · exact isTrusted_count _
  · exact isTrusted_getD fun v hv => hitems v (List.mem_of_head? hv)
  · exact isTrusted_getD fun v hv => hitems v (List.mem_of_getLast? hv)
  · exact .array fun v hv => hitems v (List.mem_reverse.1 hv)
  · exact .str _

theorem IsTrusted.mapMethod {target v : Value} {entries : Bindings Value} {name : String}
    {args : List Value} (hentries : ∀ e ∈ entries, Value.IsTrusted host e.2)
    (h : target.mapMethod entries name args = .ok v) : v.IsTrusted host := by
  unfold Value.mapMethod at h
  split at h
  · exact eq_of_answer h ▸ isTrusted_count _
  · exact eq_of_answer h ▸ isTrusted_count _
  · rw [eq_of_answer h]
    refine .array fun v hv => ?_
    obtain ⟨e, -, rfl⟩ := List.mem_map.1 hv
    exact .str _
  · rw [eq_of_answer h]
    refine .array fun v hv => ?_
    obtain ⟨e, he, rfl⟩ := List.mem_map.1 hv
    exact hentries e he
  · obtain ⟨_, -, h⟩ := bind_eq_ok.1 h
    split at h <;> cases h
    exact .bool _
  · cases h

/-- The methods of texts never answer with raw text. -/
theorem isTrusted_textMethod {target v : Value} {s name : String} {args : List Value}
    (h : target.textMethod s name args = .ok v) : v.IsTrusted host := by
  unfold Value.textMethod at h
  split at h
  · exact eq_of_answer h ▸ isTrusted_count _
  · exact eq_of_answer h ▸ isTrusted_count _
  · exact eq_of_answer h ▸ .str _
  · exact eq_of_answer h ▸ .str _
  · obtain ⟨_, -, h⟩ := bind_eq_ok.1 h
    obtain ⟨start, -, h⟩ := bind_eq_ok.1 h
    split at h
    · cases h
    · obtain ⟨length, -, h⟩ := bind_eq_ok.1 h
      split at h <;> cases h <;> exact .str _
  · cases h

theorem IsTrusted.answer {ctx : Context σ} (hctx : ctx.IsTrusted host) {target v : Value}
    {name : String} {args : List Value} (ht : target.IsTrusted host)
    (hargs : ∀ a ∈ args, a.IsTrusted host)
    (h : target.answer ctx.hosts name args = .ok v) : v.IsTrusted host := by
  cases ht with
  | null => cases h
  | host hstate => exact hctx.method hstate hargs h
  | array hitems => exact .arrayMethod hitems h
  | map hentries => exact .mapMethod hentries h
  | str s => exact isTrusted_textMethod h
  | raw _ => exact isTrusted_textMethod h
  | bool _ | int _ | float _ => cases h

theorem IsTrusted.member {ctx : Context σ} (hctx : ctx.IsTrusted host) {container key : Value}
    {r : List Caution × Value} (hc : container.IsTrusted host)
    (h : Value.member ctx.hosts container key = .ok r) : r.2.IsTrusted host := by
  cases hc with
  | map hentries =>
    simp only [Value.member] at h
    split at h <;> cases h
    · exact .null
    · exact isTrusted_getD fun v hv =>
        Policy.table.lookup (π := Policy.markup host) hentries hv
  | array hitems =>
    cases key <;> cases h
    refine isTrusted_getD fun v hv => ?_
    obtain ⟨n, -, hn⟩ := Option.bind_eq_some_iff.1 hv
    exact hitems v (List.mem_of_getElem? hn)
  | host hstate =>
    simp only [Value.member] at h
    split at h
    · cases h
    · split at h
      · next hfield =>
        cases h
        exact hctx.field hstate hfield
      · cases h
  | null =>
    cases h
    exact .null
  | bool _ | int _ | float _ | str _ | raw _ => cases h

theorem IsTrusted.items {ctx : Context σ} (hctx : ctx.IsTrusted host) {v : Value}
    {vs : List Value} (hv : v.IsTrusted host) (h : v.items ctx.hosts = .ok vs) :
    ∀ u ∈ vs, u.IsTrusted host := by
  cases hv with
  | array hitems =>
    cases h
    exact hitems
  | map hentries =>
    cases h
    intro u hu
    obtain ⟨e, -, rfl⟩ := List.mem_map.1 hu
    exact .str _
  | @host type _ _ state hstate =>
    simp only [Value.items] at h
    split at h
    · next hitems =>
      cases h
      exact hctx.items hstate hitems
    · cases h
  | null | bool _ | int _ | float _ | str _ | raw _ => cases h

end Value

/-! ### Renders -/

/-- A trusted context makes trusted values of trusted ones. -/
theorem Context.IsTrusted.suits {ctx : Context σ} {host : String → Value → Prop}
    (hctx : ctx.IsTrusted host) : (Policy.markup host).Suits ctx where
  null := .null
  bool := .bool
  int := .int
  float := .float
  str := .str
  raw := ⟨fun h => by cases h with | raw h => exact h, .raw⟩
  array := .array
  map := .map
  items := .items hctx
  member := .member hctx
  answer := .answer hctx
  call := hctx.function
  empty := Text.isSafe_empty
  append := .append
  placeholder := hctx.placeholder
  escape s := by
    rw [hctx.escape]
    exact Text.isSafe_escapeMarkup s

/-- The output of a compiled program is safe, whatever its plain values are, if the text of its
tree and of the trees behind the loader is safe and the variables are trusted. -/
theorem Program.render_isSafe {ctx : Context σ} {host : String → Value → Prop}
    (hctx : ctx.IsTrusted host)
    (hload : ∀ name st p st', ctx.load name st = (.ok p, st') →
      ∃ t, p.IsCompiledFrom t ∧ t.tree.HasTexts Text.IsSafe)
    {tree : Node} (htree : tree.HasTexts Text.IsSafe) {source : Source} {p : Program}
    (hp : Program.compile tree source = .ok p) {w : World σ}
    (hvars : ∀ e ∈ w.vars, e.2.IsTrusted host) {fuel : Nat} {output : String} {v : World σ}
    (h : p.render ctx fuel w = some (.ok output, v)) : Text.IsSafe output := by
  obtain ⟨library, hserves, hlibrary⟩ := Context.exists_library hload
  have hbehaves : ∀ {name st t st'}, library name st = (.ok t, st') → t.Behaves Text.IsSafe := by
    intro name st t st' hl
    have hs := hserves name st
    rw [hl] at hs
    obtain ⟨q, -, hq⟩ := hs
    exact hq.behaves (hlibrary hl)
  have hobeys := library.render_obeys hctx.suits hbehaves fuel
    ((Program.isCompiledFrom hp).behaves htree) 0 w.silent hvars
  rw [Program.render_seen hserves hp h] at hobeys
  exact hobeys.2

/-! ### A page with a frame around it -/

/-- A frame around some content. -/
def Template.frame : Template :=
  ⟨.template [.rawText "[", .expression (.ident "content"), .rawText "]"], .anonymous⟩

theorem Template.frame_hasTexts : Template.frame.tree.HasTexts Text.IsSafe :=
  ⟨nofun, ⟨fun _ => by decide +kernel, trivial⟩, ⟨nofun, ⟨nofun, trivial⟩, trivial⟩,
    ⟨fun _ => by decide +kernel, trivial⟩, trivial⟩

/-- A page that shows a name in a frame. -/
def Node.framed : Node :=
  .template [.wrapper (.string "frame") (.template [.expression (.ident "name")])]

/-- The context that finds the frame under all names and escapes markup. -/
def Context.framing : Context Unit :=
  { Context.ofTemplate .frame with escape := Text.escapeMarkup }

theorem Context.framing_isTrusted : Context.framing.IsTrusted fun _ _ => False where
  escape := rfl
  placeholder := by decide +kernel
  field h := h.elim
  method h := h.elim
  items h := h.elim
  function h := by cases h

theorem Program.render_framed :
    ∃ p fuel output v, Program.compile .framed .anonymous = .ok p ∧
      p.render .framing fuel { vars := [("name", .str "<Ada>")], loader := () } =
        some (.ok output, v) ∧ Text.IsSafe output := by
  have hok : (Program.compile .framed .anonymous).isOk := by decide +kernel
  have hserves : (Library.ofTemplate .frame).Serves .framing :=
    Library.ofTemplate_serves (t := .frame) (by decide +kernel)
  match hp : Program.compile .framed .anonymous with
  | .error e =>
    rw [hp] at hok
    cases hok
  | .ok p =>
    have hrender : (Library.ofTemplate .frame).render .framing 2 ⟨.framed, .anonymous⟩ 0
        { vars := [("name", .str "<Ada>")], loader := () } =
          some (.ok "[&lt;Ada&gt;]", { vars := [("name", .str "<Ada>")], loader := () }) := by
      with_unfolding_all rfl
    obtain ⟨m, ⟨e | output, v⟩, hm, hseen⟩ := Program.render_ends
      (w := { vars := [("name", .str "<Ada>")], loader := () }) hserves hp hrender
    · cases hseen
    · refine ⟨p, m, output, v, rfl, hm, Program.render_isSafe Context.framing_isTrusted
        (fun name st q st' hl => ?_) ?_ hp ?_ hm⟩
      · have hq := @Context.ofTemplate_load .frame name st st' q hl
        exact ⟨.frame, Program.isCompiledFrom hq, Template.frame_hasTexts⟩
      · exact ⟨nofun, ⟨nofun, ⟨nofun, trivial⟩, ⟨nofun, ⟨nofun, ⟨nofun, trivial⟩, trivial⟩,
          trivial⟩, trivial⟩, trivial⟩
      · exact List.forall_mem_singleton.2 (.str _)

end Stencil
