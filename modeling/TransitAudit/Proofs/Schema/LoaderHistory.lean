import TransitAudit.Proofs.Document.Reading
import TransitAudit.Proofs.Files.Walk
import TransitAudit.Proofs.Schema.CacheHistory
import TransitAudit.Proofs.Schema.Requests

/-! Histories of a loader that is asked for constraints while files change. A call that fails leaves
nothing behind but the text that it has read: before a text has been read a later call does what a
new loader does, and from then on it fails as the call did that read the text. -/
namespace TransitAudit.SchemaLoader

/-- A call for the constraints of a schema, and the files at that time. -/
structure Call where
  fs : FileSystem
  identifier : String

def ask (l : SchemaLoader) (call : Call) : Except AuditError ConstraintSet × SchemaLoader :=
  l.constraints call.fs call.identifier

variable {base l m : SchemaLoader} {fs : FileSystem} {identifier path : String}
  {identifiers : List String} {found : SchemaSource} {s : ConstraintSet} {e : AuditError}
  {history before after : List (Call × Except AuditError ConstraintSet)}
  {x : Call × Except AuditError ConstraintSet}

/-! What is kept has been answered or read -/

theorem answer_of_constraintSet
    (h : (l.constraints fs identifier).2.constraintSets.get? identifier = some s)
    (hsource : (l.source fs identifier).1 = .ok found) :
    (l.constraints fs identifier).1 = .ok s := by
  rw [constraints_of_source hsource] at h ⊢
  exact Cache.get?_eq_some_iff_answer.mp h

theorem constraintSet_after {other : String}
    (h : (l.constraints fs other).2.constraintSets.get? identifier = some s) :
    l.constraintSets.get? identifier = some s ∨
      identifier = other ∧ (l.constraints fs other).1 = .ok s := by
  cases hsource : (l.source fs other).1 with
  | error e =>
    rw [constraints_of_source_error hsource, source_constraintSets] at h
    exact .inl h
  | ok found =>
    by_cases hid : identifier = other
    · subst hid
      exact .inr ⟨rfl, answer_of_constraintSet h hsource⟩
    · rw [constraints_of_source hsource] at h
      exact .inl ((Cache.get?_getOrLoad h).resolve_right fun h => hid h.1)

theorem readSource_of_renewed (hpath : base.registry.resolve identifier = .ok path) :
    (base.renewed.source fs identifier).1 = .ok found ↔
      readSource fs identifier path = .ok found := by
  have hpath' : base.renewed.registry.resolve identifier = .ok path := hpath
  rw [source_of_known hpath']
  change (Cache.getOrLoad .empty identifier _).answer = _ ↔ _
  rw [Cache.getOrLoad_empty, mapError_eq_ok_iff]

theorem exists_path_of_renewed (h : (base.renewed.source fs identifier).1 = .ok found) :
    ∃ path, base.registry.resolve identifier = .ok path := by
  cases hpath : base.registry.resolve identifier with
  | ok path => exact ⟨path, rfl⟩
  | error e =>
    have hpath' : base.renewed.registry.resolve identifier = .error e := hpath
    rw [source_of_unknown hpath'] at h
    cases h

theorem source_after {other : String} (hregistry : l.registry = base.registry)
    (h : (l.source fs other).2.sources.get? identifier = some found) :
    l.sources.get? identifier = some found ∨
      identifier = other ∧ (base.renewed.source fs other).1 = .ok found := by
  cases hpath : l.registry.resolve other with
  | error e =>
    rw [source_of_unknown hpath] at h
    exact .inl h
  | ok path =>
    rw [source_of_known hpath] at h
    refine (Cache.get?_getOrLoad h).imp_right ?_
    rintro ⟨rfl, hload⟩
    exact ⟨rfl, (readSource_of_renewed (hregistry ▸ hpath)).mpr hload⟩

/-- What a loader keeps for a schema comes from past calls for it: constraints have been answered,
and a text has been read. -/
structure Traced (base l : SchemaLoader) (past : List (Call × Except AuditError ConstraintSet))
    (identifier : String) : Prop where
  registry_eq : l.registry = base.registry
  constraintSet : ∀ s, l.constraintSets.get? identifier = some s →
    ∃ x ∈ past, x.1.identifier = identifier ∧ x.2 = .ok s
  source : ∀ found, l.sources.get? identifier = some found →
    ∃ x ∈ past, x.1.identifier = identifier ∧
      (base.renewed.source x.1.fs identifier).1 = .ok found

theorem traced_of_history (h : History Drops ask base.renewed history l) (identifier : String) :
    Traced base l history identifier := by
  refine h.invariant (P := fun past l => Traced base l past identifier) [] ?_ ?_ ?_
  · refine ⟨rfl, ?_, ?_⟩
    · intro s hs
      cases hs
    · intro found hfound
      cases hfound
  · intro past l m hl hdrops
    exact ⟨hdrops.registry_eq.trans hl.registry_eq,
      fun s hs => hl.constraintSet s (hdrops.constraintSets.kept _ _ hs),
      fun found hfound => hl.source found (hdrops.sources.kept _ _ hfound)⟩
  · intro past l x _ hx hl
    refine ⟨(constraints_registry ..).trans hl.registry_eq, ?_, ?_⟩
    · intro s hs
      rcases constraintSet_after hs with hkept | ⟨hid, hanswer⟩
      · obtain ⟨y, hy, h⟩ := hl.constraintSet s hkept
        exact ⟨y, List.mem_append_left _ hy, h⟩
      · exact ⟨x, List.mem_append_right _ (List.mem_singleton_self _), hid.symm, hx.trans hanswer⟩
    · intro found hfound
      rw [ask, constraints_sources] at hfound
      rcases source_after hl.registry_eq hfound with hkept | ⟨hid, hread⟩
      · obtain ⟨y, hy, h⟩ := hl.source found hkept
        exact ⟨y, List.mem_append_left _ hy, h⟩
      · exact ⟨x, List.mem_append_right _ (List.mem_singleton_self _), hid.symm, hid ▸ hread⟩

theorem Traced.constraintSet_eq_none (h : Traced base l history identifier)
    (hfailed : ∀ x ∈ history, x.1.identifier = identifier → ∀ s, x.2 ≠ .ok s) :
    l.constraintSets.get? identifier = none := by
  rw [Option.eq_none_iff_forall_ne_some]
  intro s hs
  obtain ⟨x, hx, hid, hanswer⟩ := h.constraintSet s hs
  exact hfailed x hx hid s hanswer

/-- Where no call has been answered with constraints and none has read the text, nothing is known
of the schema. -/
theorem Traced.sameFor (h : Traced base l history identifier)
    (hfailed : ∀ x ∈ history, x.1.identifier = identifier → ∀ s, x.2 ≠ .ok s)
    (hunread : ∀ x ∈ history, x.1.identifier = identifier →
      ∀ found, (base.renewed.source x.1.fs identifier).1 ≠ .ok found) :
    l.SameFor base.renewed identifier := by
  refine ⟨h.registry_eq, ?_, h.constraintSet_eq_none hfailed⟩
  change _ = none
  rw [Option.eq_none_iff_forall_ne_some]
  intro found hfound
  obtain ⟨x, hx, hid, hread⟩ := h.source found hfound
  exact hunread x hx hid found hread

theorem SameFor.of_drops (h : l.SameFor base.renewed identifier) (hdrops : l.Drops m) :
    m.SameFor base.renewed identifier := by
  -- nothing is kept for the schema, and dropping entries adds none
  have hnone {α : Type} {c d : Cache α} (hc : c.get? identifier = none) (hd : c.Drops d) :
      d.get? identifier = none := by
    rw [Option.eq_none_iff_forall_ne_some]
    intro value hvalue
    rw [hd.kept _ _ hvalue] at hc
    cases hc
  exact ⟨hdrops.registry_eq.trans h.registry_eq, hnone h.source_eq hdrops.sources,
    hnone h.constraintSet_eq hdrops.constraintSets⟩

/-! Texts stay while there is room -/

theorem within_source (h : l.sources.Within identifiers) (hmem : identifier ∈ identifiers) :
    (l.source fs identifier).2.sources.Within identifiers := by
  cases hpath : l.registry.resolve identifier with
  | error e =>
    rw [source_of_unknown hpath]
    exact h
  | ok path =>
    rw [source_of_known hpath]
    exact h.getOrLoad hmem _

theorem get?_source {other : String} (h : l.sources.get? identifier = some found) :
    (l.source fs other).2.sources.get? identifier = some found := by
  cases hpath : l.registry.resolve other with
  | error e =>
    rw [source_of_unknown hpath]
    exact h
  | ok path =>
    rw [source_of_known hpath]
    exact Cache.get?_getOrLoad_of_some h other _

theorem texts_of_history (h : History Drops ask l history m)
    (hmem : ∀ x ∈ history, x.1.identifier ∈ identifiers)
    (hroom : identifiers.length ≤ Cache.capacity) (hwithin : l.sources.Within identifiers) :
    m.sources.Within identifiers ∧ ∀ identifier found,
      l.sources.get? identifier = some found → m.sources.get? identifier = some found := by
  refine h.invariant (P := fun _ m => m.sources.Within identifiers ∧
    ∀ identifier found, l.sources.get? identifier = some found →
      m.sources.get? identifier = some found) [] ⟨hwithin, fun _ _ h => h⟩ ?_ ?_
  · rintro past m m' ⟨hm, hkept⟩ hdrops
    rw [hm.eq_of_drops hroom hdrops.sources]
    exact ⟨hm, hkept⟩
  · rintro past m x hx - ⟨hm, hkept⟩
    rw [ask, constraints_sources]
    exact ⟨within_source hm (hmem x hx), fun _ found h => get?_source (hkept _ found h)⟩

/-- Once a call has read the text of a schema, later calls read no other. -/
theorem get?_of_first_reader (h : History Drops ask base.renewed (before ++ x :: after) l)
    (hroom : ((before ++ x :: after).map (·.1.identifier)).dedup.length ≤ Cache.capacity)
    (hx : (base.renewed.source x.1.fs x.1.identifier).1 = .ok found)
    (hsame : ∀ t, History Drops ask base.renewed before t →
      t.SameFor base.renewed x.1.identifier) :
    l.sources.get? x.1.identifier = some found := by
  have hmem : ∀ y ∈ before ++ x :: after,
      y.1.identifier ∈ ((before ++ x :: after).map (·.1.identifier)).dedup := by
    intro y hy
    rw [List.mem_dedup]
    exact List.mem_map.mpr ⟨y, hy, rfl⟩
  obtain ⟨t, t', hbefore, hdrops, -, hafter⟩ := h.exists_of_split
  have hread : (t'.source x.1.fs x.1.identifier).1 = .ok found :=
    (((hsame t hbefore).of_drops hdrops).source x.1.fs).1.trans hx
  have hwithin := (texts_of_history hbefore
    (fun y hy => hmem y (List.mem_append_left _ hy)) hroom Cache.within_empty).1
  rw [← hwithin.eq_of_drops hroom hdrops.sources] at hwithin
  rw [ask] at hafter
  refine (texts_of_history hafter
    (fun y hy => hmem y (List.mem_append_right _ (List.mem_cons_of_mem _ hy))) hroom ?_).2 _ _ ?_
  · rw [constraints_sources]
    exact within_source hwithin (hmem x (List.mem_append_right _ List.mem_cons_self))
  · rw [constraints_sources]
    exact source_sources_get?_eq_some hread

/-- What a call reads that has not been answered before is what a new loader reads, from the files
or from those of an earlier call. -/
theorem Traced.constraints (h : Traced base l history identifier)
    (hfailed : ∀ x ∈ history, x.1.identifier = identifier → ∀ s, x.2 ≠ .ok s) (fs : FileSystem) :
    (l.constraints fs identifier).1 = (base.renewed.constraints fs identifier).1 ∨
      ∃ x ∈ history, x.1.identifier = identifier ∧
        (l.constraints fs identifier).1 = (base.renewed.constraints x.1.fs identifier).1 := by
  have hset := h.constraintSet_eq_none hfailed
  cases hkept : l.sources.get? identifier with
  | none =>
    have hsame : l.SameFor base.renewed identifier := ⟨h.registry_eq, hkept, hset⟩
    exact .inl (hsame.constraints fs).1
  | some found =>
    obtain ⟨x, hx, hid, hread⟩ := h.source found hkept
    obtain ⟨path, hpath⟩ := exists_path_of_renewed hread
    rw [constraints_of_text (source_of_kept (h.registry_eq ▸ hpath) hkept fs) hset]
    exact .inr ⟨x, hx, hid, (constraints_of_text hread rfl).symm⟩

theorem Drops.refl (l : SchemaLoader) : l.Drops l := by
  have hstays {α : Type} (c : Cache α) : c.Drops c := ⟨fun _ _ h => h, fun _ => rfl⟩
  exact ⟨rfl, rfl, hstays _, hstays _, hstays _⟩

theorem history_concat (h : History Drops ask base history l) (fs : FileSystem)
    (identifier : String) :
    History Drops ask base (history ++ [(⟨fs, identifier⟩, (l.constraints fs identifier).1)])
      (l.constraints fs identifier).2 :=
  h.append (.cons (.refl l) .nil)

/-- A text that gives no constraints is kept, and the next call fails in the same way. -/
theorem constraints_again (h : (l.source fs identifier).1 = .ok found)
    (hset : l.constraintSets.get? identifier = none) (herror : found.constraints = .error e)
    (fs' : FileSystem) :
    ((l.constraints fs identifier).2.constraints fs' identifier).1 = .error e := by
  have hanswer := (constraints_of_text h hset).trans herror
  have hset' : (l.constraints fs identifier).2.constraintSets.get? identifier = none := by
    rw [Option.eq_none_iff_forall_ne_some]
    intro s hs
    rw [answer_of_constraintSet hs h] at hanswer
    cases hanswer
  have hkept : (l.constraints fs identifier).2.sources.get? identifier = some found := by
    rw [constraints_sources]
    exact source_sources_get?_eq_some h
  cases hpath : l.registry.resolve identifier with
  | error e =>
    rw [source_of_unknown hpath] at h
    cases h
  | ok path =>
    rw [← constraints_registry l fs identifier] at hpath
    exact (constraints_of_text (source_of_kept hpath hkept fs') hset').trans herror

/-! A loader for one schema -/

/-- A loader for one schema, whose file is in a directory. -/
def ofOneSchema : SchemaLoader :=
  .ofRegistry ((SchemaRegistry.ofDirectory "xsd").withVersion "s" "s.xsd")

/-- That directory with a text for the schema. -/
def schemaFiles (text : String) : FileSystem :=
  ⟨.directory [("xsd", .directory [("s.xsd", .ofText text)])], []⟩

def noFiles : FileSystem :=
  ⟨.directory [], []⟩

/-- The file of the schema is looked up in the directory. -/
theorem resolve_schemaFile {fs : FileSystem} (hworking : fs.working = []) :
    fs.resolve "xsd/s.xsd" = fs.follow FileSystem.linkLimit ⟨[], fs.root⟩ ["xsd", "s.xsd"] := by
  exact FileSystem.resolve_of_relative hworking (by decide) (by decide) (by decide)
    (by with_unfolding_all rfl) (by with_unfolding_all rfl)

theorem resolve_schemaFiles (text : String) :
    (schemaFiles text).resolve "xsd/s.xsd" = .ok ⟨["xsd", "s.xsd"], .ofText text⟩ := by
  rw [resolve_schemaFile rfl,
    FileSystem.follow_entry _ _ rfl (by decide) (by decide) rfl (by simp),
    FileSystem.follow_entry _ _ rfl (by decide) (by decide) rfl (by simp [FileEntry.ofText]),
    FileSystem.follow_nil]
  rfl

theorem ofOneSchema_resolve : ofOneSchema.registry.resolve "s" = .ok "xsd/s.xsd" := by
  with_unfolding_all rfl

theorem ofOneSchema_source (text : String) :
    (ofOneSchema.source (schemaFiles text) "s").1 = .ok ⟨"s", "xsd/s.xsd", text⟩ := by
  have hread : readSource (schemaFiles text) "s" "xsd/s.xsd" = .ok ⟨"s", "xsd/s.xsd", text⟩ := by
    rw [readSource, FileSystem.readText_of_resolve (resolve_schemaFiles text)]
  exact (readSource_of_renewed ofOneSchema_resolve).mpr hread

theorem ofOneSchema_source_noFiles :
    (ofOneSchema.source noFiles "s").1 = .error (missing "s" "xsd/s.xsd") := by
  have hresolve : noFiles.resolve "xsd/s.xsd" = .error .notFound := by
    rw [resolve_schemaFile rfl, FileSystem.follow_missing _ _ rfl (by decide) (by decide) rfl]
  have hread : readSource noFiles "s" "xsd/s.xsd" = .error (missing "s" "xsd/s.xsd") := by
    rw [readSource, FileSystem.readText, hresolve]
    rfl
  rw [source_of_known ofOneSchema_resolve, ofOneSchema, ofRegistry, Cache.getOrLoad_empty, hread]
  rfl

theorem constraints_of_unclosed :
    SchemaSource.constraints ⟨"s", "xsd/s.xsd", "<s"⟩ =
      .error (.schemaParsing "s" "the document has no root element") := by
  rw [SchemaSource.constraints, SchemaSource.parse, Source.parse_ofList]
  with_unfolding_all rfl

theorem constraints_of_nameless :
    SchemaSource.constraints ⟨"s", "xsd/s.xsd", "<s><unique/></s>"⟩ =
      .error (.malformedConstraint "<unnamed unique at line 1>" "missing attribute name") := by
  rw [SchemaSource.constraints, SchemaSource.parse, Source.parse_ofList]
  with_unfolding_all rfl

theorem constraints_of_repaired :
    SchemaSource.constraints ⟨"s", "xsd/s.xsd", "<s/>"⟩ = .ok ⟨[], [], []⟩ := by
  rw [SchemaSource.constraints, SchemaSource.parse, Source.parse_ofList]
  with_unfolding_all rfl

/-! What failed calls leave -/

/-- Let no call for a schema have been answered with constraints. The next one does what it does
with a new loader, on the files or on those of an earlier call. It does so on the files if no
earlier call has read the text of the schema. If some call was the first to read it, and there is
room for all schemas, it fails as that call did, whatever the files are now. -/
theorem failed_calls_leave_only_text (base : SchemaLoader) (identifier : String)
    (h : History Drops ask base.renewed history l)
    (hfailed : ∀ x ∈ history, x.1.identifier = identifier → ∀ s, x.2 ≠ .ok s) :
    (∀ fs, (l.constraints fs identifier).1 = (base.renewed.constraints fs identifier).1 ∨
      ∃ x ∈ history, x.1.identifier = identifier ∧
        (l.constraints fs identifier).1 = (base.renewed.constraints x.1.fs identifier).1) ∧
    ((∀ x ∈ history, x.1.identifier = identifier →
        ∀ found, (base.renewed.source x.1.fs identifier).1 ≠ .ok found) →
      ∀ fs, (l.constraints fs identifier).1 = (base.renewed.constraints fs identifier).1 ∧
        (l.constraints fs identifier).2.SameFor (base.renewed.constraints fs identifier).2
          identifier) ∧
    ∀ before x after found, history = before ++ x :: after → x.1.identifier = identifier →
      (base.renewed.source x.1.fs identifier).1 = .ok found →
      (∀ y ∈ before, y.1.identifier = identifier →
        ∀ found, (base.renewed.source y.1.fs identifier).1 ≠ .ok found) →
      (history.map (·.1.identifier)).dedup.length ≤ Cache.capacity →
      ∃ e, x.2 = .error e ∧ (base.renewed.constraints x.1.fs identifier).1 = .error e ∧
        ∀ fs, (l.constraints fs identifier).1 = .error e := by
  have htraced := traced_of_history h identifier
  refine ⟨htraced.constraints hfailed, fun hunread fs =>
    (htraced.sameFor hfailed hunread).constraints fs, ?_⟩
  rintro before x after found rfl rfl hx hunread hroom
  have hmem : x ∈ before ++ x :: after := List.mem_append_right _ List.mem_cons_self
  have hsame : ∀ t, History Drops ask base.renewed before t →
      t.SameFor base.renewed x.1.identifier := by
    intro t ht
    exact (traced_of_history ht _).sameFor
      (fun y hy => hfailed y (List.mem_append_left _ hy)) hunread
  -- the call that reads the text does what it does with a new loader
  obtain ⟨t, t', hbefore, hdrops, hanswer, -⟩ := h.exists_of_split
  have hfirst : x.2 = (base.renewed.constraints x.1.fs x.1.identifier).1 :=
    hanswer.trans (((hsame t hbefore).of_drops hdrops).constraints x.1.fs).1
  obtain ⟨path, hpath⟩ := exists_path_of_renewed hx
  have hlater (fs : FileSystem) : (l.constraints fs x.1.identifier).1 = found.constraints :=
    constraints_of_text (source_of_kept (htraced.registry_eq ▸ hpath)
      (get?_of_first_reader h hroom hx hsame) fs) (htraced.constraintSet_eq_none hfailed)
  rw [constraints_of_text hx rfl] at hfirst ⊢
  cases hfound : found.constraints with
  | ok s => exact absurd (hfirst.trans hfound) (hfailed x hmem rfl s)
  | error e =>
    exact ⟨e, hfirst.trans hfound, rfl, fun fs => (hlater fs).trans hfound⟩

/-- A text that is read but broken stays, and the schema is not read anew when it is repaired. -/
theorem broken_text_outlasts_repair :
    (∃ e l, History Drops ask ofOneSchema [(⟨schemaFiles "<s", "s"⟩, .error e)] l ∧
      (l.constraints (schemaFiles "<s/>") "s").1 = .error e) ∧
    (∃ e l, History Drops ask ofOneSchema [(⟨schemaFiles "<s><unique/></s>", "s"⟩, .error e)] l ∧
      (l.constraints (schemaFiles "<s/>") "s").1 = .error e) ∧
    (ofOneSchema.constraints (schemaFiles "<s/>") "s").1 = .ok ⟨[], [], []⟩ := by
  have hagain {text : String} {e : AuditError}
      (h : SchemaSource.constraints ⟨"s", "xsd/s.xsd", text⟩ = .error e) :
      ∃ e l, History Drops ask ofOneSchema [(⟨schemaFiles text, "s"⟩, .error e)] l ∧
        (l.constraints (schemaFiles "<s/>") "s").1 = .error e := by
    have hhistory := history_concat (.nil (s := ofOneSchema)) (schemaFiles text) "s"
    rw [constraints_of_text (ofOneSchema_source text) rfl, h] at hhistory
    exact ⟨e, _, hhistory, constraints_again (ofOneSchema_source text) rfl h _⟩
  refine ⟨hagain constraints_of_unclosed, hagain constraints_of_nameless, ?_⟩
  rw [constraints_of_text (ofOneSchema_source "<s/>") rfl, constraints_of_repaired]

/-- A schema that was missing is read when it is there. If it is broken then, it stays broken. -/
theorem failed_calls_leave_only_text_of_missing_file :
    ∃ e l, History Drops ask ofOneSchema [(⟨noFiles, "s"⟩, .error e)] l ∧
      (l.constraints (schemaFiles "<s/>") "s").1 = .ok ⟨[], [], []⟩ ∧
      ∃ e' l', History Drops ask ofOneSchema
          [(⟨noFiles, "s"⟩, .error e), (⟨schemaFiles "<s", "s"⟩, .error e')] l' ∧
        ∀ fs, (l'.constraints fs "s").1 = .error e' := by
  have hunread : ∀ found, (ofOneSchema.renewed.source noFiles "s").1 ≠ .ok found := by
    intro found h
    cases ofOneSchema_source_noFiles.symm.trans h
  have hmissing : History Drops ask ofOneSchema
      [(⟨noFiles, "s"⟩, .error (missing "s" "xsd/s.xsd"))] (ofOneSchema.source noFiles "s").2 := by
    have h := history_concat (.nil (s := ofOneSchema)) noFiles "s"
    rw [constraints_of_source_error ofOneSchema_source_noFiles] at h
    exact h
  -- nothing is known of the schema after the first call
  have hnew (text : String) : ((ofOneSchema.source noFiles "s").2.constraints (schemaFiles text)
      "s").1 = SchemaSource.constraints ⟨"s", "xsd/s.xsd", text⟩ :=
    ((failed_calls_leave_only_text ofOneSchema "s" hmissing (by simp)).2.1
      (by simpa using hunread) _).1.trans (constraints_of_text (ofOneSchema_source text) rfl)
  have hbroken := history_concat hmissing (schemaFiles "<s") "s"
  rw [hnew, constraints_of_unclosed] at hbroken
  obtain ⟨e, he, -, hlater⟩ := (failed_calls_leave_only_text ofOneSchema "s" hbroken
    (by simp)).2.2 [_] _ [] _ rfl rfl (ofOneSchema_source "<s") (by simpa using hunread) (by decide)
  exact ⟨_, _, hmissing, (hnew "<s/>").trans constraints_of_repaired, e, _, he ▸ hbroken, hlater⟩

end TransitAudit.SchemaLoader
