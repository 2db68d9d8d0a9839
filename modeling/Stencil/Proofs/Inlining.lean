import Stencil.Proofs.Following
import Stencil.Proofs.Moves

/-!
# Including a template is writing it out

A plain inclusion of a template has the same effect as the statements of the template in its place,
if its output is written as it is.

* `Part.andThen_assoc`, `Stmt.parts_append`: statements in a row;
* `Stmt.ofNode_between`: two pages that differ in one place;
* `Stmt.follows_inclusion`: the statements of a template follow its inclusion;
* `Library.follows_page`: so do pages with the statements in place of the inclusion;
* `Frame.markOutput_of_tooLarge`: where outputs are measured;
* `Program.render_inlined`: the renders of such pages.
-/

namespace Stencil

variable {σ : Type}

/-! ### Statements in a row -/

namespace Part

theorem nothing_andThen (x : Part σ) : nothing.andThen x = x := by
  funext written
  have hbehind (p : Passage) : p.behind "" = p := by rw [Passage.behind, String.empty_append]
  simp only [andThen, nothing, pure_bind, hbehind, bind_pure]
  rfl

theorem andThen_assoc (x y z : Part σ) : (x.andThen y).andThen z = x.andThen (y.andThen z) := by
  funext written
  have hbehind (r : Passage) (s s' : String) : (r.behind s').behind s = r.behind (s ++ s') := by
    rw [Passage.behind, Passage.behind, Passage.behind, String.append_assoc]
  simp only [andThen, bind_assoc]
  refine congrArg _ (funext fun p => ?_)
  obtain ⟨text, flow⟩ := p
  cases flow with
  | last => rfl
  | next => rfl
  | on =>
    simp only [bind_assoc, pure_bind]
    refine congrArg _ (funext fun q => ?_)
    obtain ⟨text', flow⟩ := q
    cases flow with
    | last => rfl
    | next => rfl
    | on => simp only [Passage.behind, String.utf8ByteSize_append, Nat.add_assoc, bind_assoc,
        pure_bind, String.append_assoc]

end Part

namespace Stmt

theorem parts_append (site : Site σ) (env : Env) (body rest : List Stmt) :
    parts site (body ++ rest) env = (parts site body env).andThen (parts site rest env) := by
  induction body with
  | nil => exact (Part.nothing_andThen _).symm
  | cons s body ih =>
    show (s.part site env).andThen (parts site (body ++ rest) env) = _
    rw [ih]
    exact (Part.andThen_assoc _ _ _).symm

theorem ofNodes_append {inLoop : Bool} {ns rest : List Node} {ss : List Stmt} :
    ofNodes inLoop (ns ++ rest) = .ok ss ↔
      ∃ as bs, ofNodes inLoop ns = .ok as ∧ ofNodes inLoop rest = .ok bs ∧ as ++ bs = ss := by
  induction ns generalizing ss with
  | nil => simp [ofNodes]
  | cons n ns ih =>
    simp only [List.cons_append, ofNodes, bind_eq_ok, pure_eq_ok, ih]
    constructor
    · rintro ⟨s, hs, _, ⟨as, bs, has, hbs, rfl⟩, rfl⟩
      exact ⟨s :: as, bs, ⟨s, hs, as, has, rfl⟩, hbs, rfl⟩
    · rintro ⟨_, bs, ⟨s, hs, as, has, rfl⟩, hbs, rfl⟩
      exact ⟨s, hs, as ++ bs, ⟨as, bs, has, hbs, rfl⟩, rfl⟩

theorem ofNodes_between {inLoop : Bool} {before ns behind : List Node} {ss : List Stmt} :
    ofNodes inLoop (before ++ ns ++ behind) = .ok ss ↔
      ∃ as body bs, ofNodes inLoop before = .ok as ∧ ofNodes inLoop ns = .ok body ∧
        ofNodes inLoop behind = .ok bs ∧ as ++ body ++ bs = ss := by
  rw [ofNodes_append]
  constructor
  · rintro ⟨_, bs, h, hbs, rfl⟩
    obtain ⟨as, body, has, hbody, rfl⟩ := ofNodes_append.1 h
    exact ⟨as, body, bs, has, hbody, hbs, rfl⟩
  · rintro ⟨as, body, bs, has, hbody, hbs, rfl⟩
    exact ⟨as ++ body, bs, ofNodes_append.2 ⟨as, body, has, hbody, rfl⟩, hbs, rfl⟩

/-- Two pages that differ in one place are read as statements that differ there. -/
theorem ofNode_between {before ns ns' behind : List Node} {s s' : Stmt}
    (h : ofNode false (.template (before ++ ns ++ behind)) = .ok s)
    (h' : ofNode false (.template (before ++ ns' ++ behind)) = .ok s') :
    ∃ as body body' bs, ofNodes false ns = .ok body ∧ ofNodes false ns' = .ok body' ∧
      s = .block (as ++ body ++ bs) ∧ s' = .block (as ++ body' ++ bs) := by
  obtain ⟨_, hss, hs⟩ := bind_eq_ok.1 h
  obtain ⟨_, hss', hs'⟩ := bind_eq_ok.1 h'
  cases hs
  cases hs'
  obtain ⟨as, body, bs, has, hbody, hbs, rfl⟩ := ofNodes_between.1 hss
  obtain ⟨as', body', bs', has', hbody', hbs', rfl⟩ := ofNodes_between.1 hss'
  obtain rfl : as = as' := Except.ok.inj (has.symm.trans has')
  obtain rfl : bs = bs' := Except.ok.inj (hbs.symm.trans hbs')
  exact ⟨as, body, body', bs, hbody, hbody', rfl, rfl⟩

end Stmt

/-! ### An inclusion -/

section Inclusion

variable {ctx : Context σ} {library : Library σ} {catalog : Catalog} {I : σ → Prop}
  {name : String} {t : Template} {body : List Stmt}

/-- The output of a template is written as it is. -/
theorem Site.writeOutput_raw {site : Site σ} (hraw : site.ctx.limits.rawInclusions = true)
    (line : UInt32) (output : String) (w : World σ) :
    site.writeOutput line output w = some (.ok ⟨output, .on⟩, w) := by
  rw [writeOutput, if_pos hraw]
  rfl

/-- The statements of a template lead nowhere else. -/
theorem Library.parts_obey (hserves : library.Serves ctx)
    (ht : Stmt.ofNode false t.tree = .ok (.block body)) (fuel : Nat) (source : Source)
    (depth : Nat) :
    (Stmt.parts (library.site ctx fuel source depth) body {}).Obeys Policy.any false := by
  have hbody : Stmt.AllBehave Policy.any.text false body :=
    Stmt.ofNode_behaves t.tree t.tree.hasTexts_any ht
  exact Stmt.parts_obey (Policy.any_suits ctx) ⟨hserves.behaves, fun _ depth ht =>
    library.render_obeys (Policy.any_suits ctx) hserves.behaves fuel ht depth⟩ body hbody
      Policy.table_nil

variable (hraw : ctx.limits.rawInclusions = true) (hserves : library.Serves ctx)
  (hholds : library.Holds catalog I) (hname : catalog name = .ok t)
  (ht : Stmt.ofNode false t.tree = .ok (.block body))

include hraw hserves hholds hname ht

/-- If an inclusion has a result, the statements of the template have had one, which has become the
result of the inclusion. -/
theorem Site.inclusion_eq_ok {fuel : Nat} {source : Source} {depth : Nat} {line : UInt32}
    {w w' : World σ} (hw : I w.loader) {p : Passage}
    (h : (library.site ctx fuel source depth).inclusion line (.str name) w = some (.ok p, w')) :
    ∃ rest st, fuel = rest + 1 ∧ I st ∧
      Stmt.parts (library.site ctx rest t.source (depth + 1)) body {} 0 { w with loader := st } =
        some (.ok p, w') := by
  obtain ⟨output, u, hrender, hwrite⟩ := Act.of_bind_eq_ok h
  obtain ⟨t', u', hload, hvisit⟩ := Act.of_bind_eq_ok hrender
  obtain ⟨st, hst, hI⟩ := hholds name w.loader hw
  rw [hname] at hst
  replace hst : (library.site ctx fuel source depth).library (Value.str name).text w.loader =
      (.ok t, st) := hst
  rw [Site.load_eq rfl hst] at hload
  cases hload
  have hraw' : (library.site ctx fuel source depth).ctx.limits.rawInclusions = true := hraw
  rw [Site.writeOutput_raw hraw'] at hwrite
  cases hwrite
  obtain ⟨-, henter⟩ := Site.visit_eq_ok hvisit
  replace henter : library.render ctx fuel t (depth + 1) { w with loader := st } =
      some (.ok output, w') := henter
  cases fuel with
  | zero => cases henter
  | succ rest =>
    rw [Library.render_eq ht] at henter
    obtain ⟨p, u, hparts, hp⟩ := Act.of_bind_eq_ok henter
    cases hp
    have hobeys := Library.parts_obey hserves ht rest t.source (depth + 1) 0
      { w with loader := st } fun _ _ => trivial
    rw [show Stmt.part _ (.block body) {} = Stmt.parts _ body {} from rfl] at hparts
    rw [hparts] at hobeys
    obtain ⟨text, flow⟩ := p
    obtain rfl : flow = .on := hobeys.2.2 rfl
    exact ⟨rest, st, rfl, hI, hparts⟩

variable (hreadable : ∀ {name t}, catalog name = .ok t → t.IsReadable)

include hreadable

/-- The statements of a template follow its inclusion. -/
theorem Stmt.follows_inclusion (fuel : Nat) (source source' : Source) (depth : Nat)
    (line line' : UInt32) :
    (Stmt.parts (library.site ctx fuel source' depth) body {}).Follows I
      ((Stmt.inclusion (.str name line') line).part (library.site ctx fuel source depth) {}) := by
  intro written written' v w hlike p w' h
  obtain ⟨rest, st, rfl, hst, hparts⟩ :=
    Site.inclusion_eq_ok hraw hserves hholds hname ht hlike.right h
  have hsite : (library.site ctx (rest + 1) source' depth).Follows catalog I
      (library.site ctx rest t.source (depth + 1)) :=
    Library.site_follows hholds hreadable (Nat.le_succ rest) _ _ (Nat.le_succ depth)
  exact Stmt.parts_follow hsite body {} 0 written' v { w with loader := st }
    ⟨hlike.vars, hlike.gists, hlike.left, hst⟩ p w' hparts

/-- Statements with those of a template among them follow the ones with its inclusion there. -/
theorem Stmt.follows_parts (before behind : List Stmt) (fuel : Nat) (source source' : Source)
    (depth : Nat) (line line' : UInt32) :
    (Stmt.parts (library.site ctx fuel source' depth) (before ++ body ++ behind) {}).Follows I
      (Stmt.parts (library.site ctx fuel source depth)
        (before ++ [.inclusion (.str name line') line] ++ behind) {}) := by
  have hsite : (library.site ctx fuel source' depth).Follows catalog I
      (library.site ctx fuel source depth) :=
    Library.site_follows hholds hreadable (Nat.le_refl fuel) _ _ (Nat.le_refl depth)
  have hinclusion := Stmt.follows_inclusion hraw hserves hholds hname ht hreadable fuel source
    source' depth line line'
  rw [List.append_assoc, List.append_assoc, parts_append, parts_append, parts_append]
  exact Part.andThen_follows (Stmt.parts_follow hsite before {})
    (Part.andThen_follows hinclusion (Stmt.parts_follow hsite behind {}))

/-- So do whole pages. -/
theorem Library.follows_page (page page' : Template) {before behind : List Stmt}
    {line line' : UInt32}
    (hpage : Stmt.ofNode false page.tree =
      .ok (.block (before ++ [.inclusion (.str name line') line] ++ behind)))
    (hpage' : Stmt.ofNode false page'.tree = .ok (.block (before ++ body ++ behind)))
    (fuel depth : Nat) :
    (library.render ctx fuel page' depth).Follows I (library.render ctx fuel page depth) := by
  cases fuel with
  | zero =>
    intro v w _ output w' h
    cases h
  | succ fuel =>
    rw [Library.render_eq hpage', Library.render_eq hpage]
    exact (Stmt.follows_parts hraw hserves hholds hname ht hreadable before behind fuel page.source
      page'.source depth line line' 0 0).bind fun _ => .pure _

end Inclusion

/-! ### Outputs that are measured -/

/-- Only a step that marks the end of the output finds it too large. -/
theorem Frame.markOutput_of_tooLarge {ctx : Context σ} {f : Frame} {w v : World σ} {p : Program}
    {pc : Nat} (h : f.step ctx w = .fault (.internal .outputTooLarge) p pc v) :
    f.op? = some .markOutput ∧ 2 ^ 63 ≤ f.output.utf8ByteSize := by
  unfold step at h
  split at h
  · cases h
  · next i hi =>
    dsimp only at h
    split at h
    · obtain ⟨_, bindings, _, -, hfault | hfault⟩ := internal_of_perform h
      · cases hfault
      · exact absurd hfault (by unfold register; split <;> simp)
    · next ha =>
      cases h
      obtain ⟨hop, hlarge⟩ := action_confined _ ha
      exact ⟨hop ▸ op?_eq hi, hlarge⟩

/-- If all outputs that are measured are short enough, no error says otherwise. -/
theorem Program.fault_ne_tooLarge {ctx : Context σ} {p : Program} {w v : World σ}
    (hmeasured : ∀ f u, (Frame.start p 0).Reaches ctx (w.note (.enter p.source.name 0)) f u →
      f.op? = some .markOutput → f.output.utf8ByteSize < 2 ^ 63) {fuel : Nat} {e : RenderError}
    (h : p.render ctx fuel w = some (.error e, v)) : e.head.fault ≠ .internal .outputTooLarge := by
  intro hlarge
  obtain ⟨u, hexec, -⟩ := Program.exec_of_render h
  obtain ⟨f, v', fault, p', pc, u', hreach, hstep, hlinks⟩ := Frame.exec_error hexec
  obtain rfl : e.head.fault = fault := hlinks e.head List.mem_cons_self
  rw [hlarge] at hstep
  obtain ⟨hop, hsize⟩ := Frame.markOutput_of_tooLarge hstep
  exact absurd (hmeasured f v' hreach hop) (Nat.not_lt.2 hsize)

/-! ### Pages -/

/-- A page that includes a template does the same as the page with the statements of the template in
place of the inclusion, if the outputs of templates are written as they are. If the first one
succeeds, so does the second one under the same limits: with the same output, the same variables,
the same cautions and the same calls, in the same order. The loader holds the template, and no text
of the second page is longer than a text can be. -/
theorem Program.render_inlined {ctx : Context σ} (hraw : ctx.limits.rawInclusions = true)
    {catalog : Catalog} {I : σ → Prop} (hholds : ctx.Holds catalog I)
    {name : String} {body : List Node} {inner : Source}
    (hname : catalog name = .ok ⟨.template body, inner⟩)
    {before behind : List Node} {line line' : UInt32} {source source' : Source} {p q : Program}
    (hp : Program.compile (.template (before ++
      [(Node.inclusion ((Node.string name).onLine line')).onLine line] ++ behind)) source = .ok p)
    (hq : Program.compile (.template (before ++ body ++ behind)) source' = .ok q)
    {w v : World σ} (hw : I w.loader) {fuel : Nat} {output : String}
    (h : p.render ctx fuel w = some (.ok output, v))
    (hmeasured : ∀ f u, (Frame.start q 0).Reaches ctx (w.note (.enter q.source.name 0)) f u →
      f.op? = some .markOutput → f.output.utf8ByteSize < 2 ^ 63) :
    ∃ fuel' v', q.render ctx fuel' w = some (.ok output, v') ∧ v'.vars = v.vars ∧
      v'.gists = v.gists := by
  obtain ⟨library, load, hserves, hlibrary, hsame⟩ := hholds.exists_library
  have hreadable {name t} (ht : catalog name = .ok t) : t.IsReadable := by
    obtain ⟨r, -, hr⟩ := hholds.found hw ht
    obtain ⟨s, hs, -⟩ := hr.exists_stmt
    exact ⟨s, hs⟩
  -- The pages are read alike, but for the place of the inclusion.
  obtain ⟨_, hpage, -⟩ := Program.compile_eq_ok hp
  obtain ⟨_, hpage', -⟩ := Program.compile_eq_ok hq
  obtain ⟨as, _, ts, bs, hinclusion, hts, rfl, rfl⟩ := Stmt.ofNode_between hpage hpage'
  cases hinclusion
  have hinner : Stmt.ofNode false (.template body) = .ok (.block ts) := bind_eq_ok.2 ⟨ts, hts, rfl⟩
  have hraw' : (ctx.withLoad load).limits.rawInclusions = true := hraw
  have hfollows := Library.follows_page hraw' hserves hlibrary hname hinner hreadable
    ⟨_, source⟩ ⟨_, source'⟩ hpage hpage' fuel 0
  have hlike : World.Like I w.silent w.silent := ⟨rfl, rfl, hw, hw⟩
  have hseen := Program.render_seen hserves hp ((hsame p fuel w hw).trans h)
  rcases hfollows _ _ hlike _ _ hseen with ⟨u, hu, hlike'⟩ | ⟨blames, u, hu, hblames⟩
  · obtain ⟨m, ⟨result, v'⟩, hm, hout⟩ := Program.render_ends hserves hq hu
    cases result with
    | error e => cases hout
    | ok output' =>
      cases hout
      refine ⟨m, v', (hsame q m w hw).symm.trans hm, hlike'.vars, ?_⟩
      rw [← World.gists_silent v', ← World.gists_silent v]
      exact hlike'.gists
  · obtain ⟨m, ⟨result, v'⟩, hm, hout⟩ := Program.render_ends hserves hq hu
    cases result with
    | ok output' => cases hout
    | error e =>
      cases hout
      refine absurd ?_ (Program.fault_ne_tooLarge hmeasured ((hsame q m w hw).symm.trans hm))
      exact hblames e.head.blame (List.mem_map_of_mem List.mem_cons_self)

/-! ### A page in memory -/

/-- Only frames of its own are on the way of a program that renders no other templates. -/
theorem Frame.Reaches.program_of_alone {ctx : Context σ} {p : Program}
    (hp : ∀ i ∈ p.instructions, i.op ∉ [Opcode.inclusion, .inclusionWith, .wrap]) {f g : Frame}
    {w v : World σ} (h : f.Reaches ctx w g v) (hf : f.program = p) : g.program = p := by
  have hstays {f f' : Frame} {w w' : World σ} {q : Program} {kept : Option Vars} {resume : Resume}
      (hf : f.program = p) (hs : f.step ctx w = .render q kept f' resume w') : False := by
    cases Moves.of_step hs with
    | render asks _ _ =>
      obtain ⟨i, _, _, hi, hop, -⟩ := asks
      rw [hf] at hi
      exact hp i (Array.mem_of_getElem? hi) hop
  induction h with
  | refl => exact hf
  | next hs _ ih => exact ih ((continues_of_next hs).program.trans hf)
  | enter hs _ _ => exact (hstays hf hs).elim
  | leave hs _ _ _ => exact (hstays hf hs).elim

/-- Where no other templates are rendered and no outputs are marked, none is measured. -/
theorem Frame.Reaches.op?_ne_of_alone {ctx : Context σ} {p : Program}
    (hp : ∀ i ∈ p.instructions,
      i.op ∉ [Opcode.inclusion, .inclusionWith, .wrap] ∧ i.op ≠ .markOutput) {f g : Frame}
    {w v : World σ} (h : f.Reaches ctx w g v) (hf : f.program = p) : g.op? ≠ some .markOutput := by
  intro hop
  rw [op?, h.program_of_alone (fun i hi => (hp i hi).1) hf, Option.map_eq_some_iff] at hop
  obtain ⟨i, hi, hop⟩ := hop
  exact (hp i (Array.mem_of_getElem? hi)).2 hop

/-- The context of the store in memory, which writes outputs as they are. -/
def Context.ofStore : Context TemplateStore where
  limits := { rawInclusions := true }
  load := TemplateStore.program {} ⟨fun _ _ => .error ""⟩

/-- The store that has the greeting. -/
def TemplateStore.greeting : TemplateStore :=
  .memory (MemoryLoader.insert {} "greeting" Template.greeting.tree .anonymous)

/-- The page with the greeting written out. -/
def Node.pageWrittenOut : Node :=
  .template [.expression (.set "name" (.string "Ada")), .rawText "Hello, ",
    .expression (.ident "name")]

theorem Program.render_page_inlined :
    ∃ p q fuel fuel' v v', Program.compile .page .anonymous = .ok p ∧
      Program.compile .pageWrittenOut .anonymous = .ok q ∧
      p.render .ofStore fuel { loader := .greeting } = some (.ok "Hello, Ada", v) ∧
      q.render .ofStore fuel' { loader := .greeting } = some (.ok "Hello, Ada", v') ∧
      v'.vars = v.vars ∧ v'.gists = v.gists := by
  obtain ⟨p, hp⟩ := exists_of_isOk (show (Program.compile .page .anonymous).isOk by decide +kernel)
  obtain ⟨q, hq⟩ :=
    exists_of_isOk (show (Program.compile .pageWrittenOut .anonymous).isOk by decide +kernel)
  obtain ⟨g, hg⟩ :=
    exists_of_isOk (show (Program.compile Template.greeting.tree .anonymous).isOk by decide +kernel)
  have hpage : ((Program.compile .page .anonymous).toOption.bind fun p =>
      (p.render .ofStore 10 { loader := .greeting }).bind fun out => out.1.toOption) =
        some "Hello, Ada" := by decide +kernel
  have hops : (Program.compile .pageWrittenOut .anonymous).toOption.all fun q =>
      q.instructions.all fun i =>
        i.op ∉ [Opcode.inclusion, .inclusionWith, .wrap] ∧ i.op ≠ .markOutput := by decide +kernel
  rw [hp] at hpage
  rw [hq] at hops
  obtain ⟨⟨result, v⟩, hrender, hresult⟩ : ∃ out,
      p.render .ofStore 10 { loader := .greeting } = some out ∧
        out.1.toOption = some "Hello, Ada" := Option.bind_eq_some_iff.1 hpage
  replace hops : (q.instructions.all fun i =>
      i.op ∉ [Opcode.inclusion, .inclusionWith, .wrap] ∧ i.op ≠ .markOutput) = true := hops
  simp only [Array.all_eq_true', decide_eq_true_eq] at hops
  cases result with
  | error e => cases hresult
  | ok output =>
    obtain rfl : output = "Hello, Ada" := Option.some.inj hresult
    have hholds : Context.ofStore.Holds
        (MemoryLoader.catalog [("greeting", (Template.greeting.tree, .anonymous))]) _ :=
      TemplateStore.memory_holds rfl _
    have hstore : ∃ l, TemplateStore.greeting = .memory l ∧
        l.Has [("greeting", (Template.greeting.tree, .anonymous))] :=
      ⟨_, rfl, rfl, by rintro _ _ ⟨⟩⟩
    have hbefore : Program.compile (.template ([.expression (.set "name" (.string "Ada"))] ++
        [(Node.inclusion ((Node.string "greeting").onLine 1)).onLine 1] ++ [])) .anonymous =
        .ok p := hp
    have hbehind : Program.compile (.template ([.expression (.set "name" (.string "Ada"))] ++
        [.rawText "Hello, ", .expression (.ident "name")] ++ [])) .anonymous = .ok q := hq
    obtain ⟨fuel', v', hrender', hvars, hgists⟩ := Program.render_inlined rfl hholds
      (MemoryLoader.catalog_of_compile rfl hg) hbefore hbehind hstore hrender
      fun f u hf hop => absurd hop (hf.op?_ne_of_alone hops rfl)
    exact ⟨p, q, 10, fuel', v, v', hp, hq, hrender, hrender', hvars, hgists⟩

end Stencil
