import TransitAudit.Document.Source
import TransitAudit.Proofs.Document.Nodes
import TransitAudit.Proofs.Text.Reader
import TransitAudit.Proofs.Text.Trim

/-! What holds of every tag of a document that has been read. No two attributes of an element have
the same name and namespace, and the labels of namespaces are names without a colon. The markup is
read with such names, the tags are put together from it one by one, and entities bring in more
markup of the same kind. -/
namespace TransitAudit.Xml

open Text

/-- A name without a colon. -/
def IsLocalName (name : String) : Prop :=
  name ≠ "" ∧ ∀ c ∈ name.toList, isNameChar c = true ∧ c ≠ ':'

/-! Names in the markup -/

theorem readQName_gives : readQName.Gives fun q => IsLocalName q.name := by
  refine Reader.Gives.bind (Reader.Gives.takeWhile isNameChar) fun cs hcs => ?_
  have hname {name : List Char} (hmem : name ∈ splitAt ':' cs) (hsub : name ⊆ cs)
      (hne : name.isEmpty = false) : IsLocalName (String.ofList name) := by
    constructor
    · intro hempty
      have hnil : name = [] := by simpa using hempty
      simp [hnil] at hne
    · intro c hc
      rw [String.toList_ofList] at hc
      refine ⟨hcs c (hsub hc), ?_⟩
      rintro rfl
      exact not_mem_of_mem_splitAt hmem hc
  split
  · rename_i name hsplit
    obtain ⟨rfl, -⟩ := splitAt_eq_singleton_iff.mp hsplit
    dsimp only
    split
    · exact .throw_bind
    · rename_i hif
      rw [Bool.not_eq_true, Bool.or_eq_false_iff] at hif
      exact .pure (hname (hsplit ▸ List.mem_cons_self) (List.Subset.refl _) hif.1)
  · rename_i label name hsplit
    obtain ⟨rfl, -, -⟩ := splitAt_eq_pair_iff.mp hsplit
    dsimp only
    split
    · exact .throw_bind
    · rename_i hif
      rw [Bool.not_eq_true, Bool.or_eq_false_iff, Bool.or_eq_false_iff] at hif
      refine .pure (hname (hsplit ▸ by simp) ?_ hif.1.1)
      intro c hc
      simp [hc]
  · exact .throw

/-- The names in a piece of markup that end up as labels or attributes. -/
def Markup.WellFormed : Markup → Prop
  | .startTag _ _ written _ => ∀ a ∈ written, IsLocalName a.name.name
  | _ => True

theorem readAttribute_gives : readAttribute.Gives fun a => IsLocalName a.name.name := by
  refine .bind readQName_gives fun q hq => ?_
  refine .bind (.any _) fun _ _ => .bind (.any _) fun _ _ => .bind (.any _) fun _ _ => ?_
  refine .bind (.any _) fun _ _ => ?_
  dsimp only
  split
  case h_3 => exact .throw_bind
  -- whichever quote it is, the value does not change the name
  all_goals
    refine .bind (.any _) fun quote _ => .bind (.any _) fun value _ => ?_
    split
    · exact .throw_bind
    · refine .bind (.any _) fun _ _ => ?_
      split
      · exact .pure hq
      · exact .throw_bind

theorem readStartTag_gives (offset : Nat) : (readStartTag offset).Gives Markup.WellFormed := by
  refine .bind (.any _) fun name _ => ?_
  dsimp only
  split
  · exact .throw_bind
  · refine .bind (.collect (P := fun a => IsLocalName a.name.name) ?_) fun written hwritten => ?_
    · -- one attribute, or the end of the tag
      refine .bind (.any _) fun _ _ => ?_
      split
      · exact .pure (by simp)
      · refine .bind (.any _) fun spaces _ => .bind (.any _) fun _ _ => ?_
        split
        · exact .throw
        · exact .pure (by simp)
        · exact .pure (by simp)
        · split
          · exact .throw_bind
          · exact .bind readAttribute_gives fun a ha => .pure (by simpa using ha)
    · refine .bind (.any _) fun _ _ => ?_
      split
      · exact .pure hwritten
      · refine .bind (.any _) fun _ _ => ?_
        split
        · exact .pure hwritten
        · exact .bind (.any _) fun _ _ => .pure hwritten

theorem readEndTag_gives : readEndTag.Gives Markup.WellFormed := by
  refine .bind (.any _) fun _ _ => .bind (.any _) fun _ _ => .bind (.any _) fun _ _ => ?_
  exact .pure trivial

theorem readText_gives : readText.Gives Markup.WellFormed := by
  refine .bind (.any _) fun raw _ => ?_
  dsimp only
  split
  · exact .throw_bind
  · split
    · exact .throw_bind
    · exact .pure trivial

theorem readMarkup_gives : readMarkup.Gives fun m => ∀ x ∈ m, x.WellFormed := by
  have hsome {r : Reader Fault Markup} (hr : r.Gives Markup.WellFormed) :
      Reader.Gives (do return some (← r) : Reader Fault (Option Markup))
        fun m => ∀ x ∈ m, x.WellFormed :=
    .bind hr fun m hm => .pure (by simpa using hm)
  have haside (r : Reader Fault Unit) :
      Reader.Gives (do r; return some .aside : Reader Fault (Option Markup))
        fun m => ∀ x ∈ m, x.WellFormed :=
    .bind (.any _) fun _ _ => .pure (by simp [Markup.WellFormed])
  refine .bind (.any _) fun offset _ => .bind (.any _) fun next _ => ?_
  split
  · exact .pure (by simp)
  · refine .bind (.any _) fun _ _ => ?_
    split
    · exact haside readComment
    · refine .bind (.any _) fun _ _ => ?_
      split
      · exact .bind (.any _) fun _ _ => .pure (by simp [Markup.WellFormed])
      · refine .bind (.any _) fun _ _ => ?_
        split
        · exact .throw
        · refine .bind (.any _) fun _ _ => ?_
          split
          · exact haside readInstruction
          · refine .bind (.any _) fun _ _ => ?_
            split
            · exact hsome readEndTag_gives
            · exact .bind (.any _) fun _ _ => hsome (readStartTag_gives offset)
  · exact hsome readText_gives

theorem readContent_gives : readContent.Gives fun markup => ∀ m ∈ markup, m.WellFormed := by
  refine .collectFrom ?_ _
  intro depth
  cases depth with
  | none => exact .pure (by simp)
  | some depth =>
    refine .bind readMarkup_gives fun m hm => .pure ?_
    intro a ha
    obtain ⟨x, hx, rfl⟩ := Option.map_eq_some_iff.mp ha
    exact hm x hx

theorem contentOf_wellFormed {c : Cursor} {markup : List Markup} (h : contentOf c = .ok markup) :
    ∀ m ∈ markup, m.WellFormed := by
  obtain ⟨⟨xs, d⟩, hread, rfl⟩ := map_eq_ok_iff.mp h
  exact readContent_gives c xs d hread

theorem readBody_gives : readBody.Gives fun markup => ∀ m ∈ markup, m.WellFormed := by
  refine .bind (.any _) fun _ _ => .bind (.any _) fun offset _ => .bind (.any _) fun _ _ => ?_
  refine .bind (readStartTag_gives offset) fun tag htag => ?_
  have hend (content : List Markup) (hcontent : ∀ m ∈ content, m.WellFormed) :
      Reader.Gives (do
        readAsides
        unless ← Reader.atEnd do throw .textOutsideRoot
        return tag :: content : Reader Fault (List Markup)) fun ms => ∀ m ∈ ms, m.WellFormed := by
    refine .bind (.any _) fun _ _ => .bind (.any _) fun _ _ => ?_
    split
    · exact .pure (List.forall_mem_cons.mpr ⟨htag, hcontent⟩)
    · exact .throw_bind
  dsimp only
  split
  · exact .bind readContent_gives hend
  · exact .bind (.pure (by simp)) hend

/-! Tags -/

/-- What holds of the tags of a document. -/
structure Tag.WellFormed (t : Tag) : Prop where
  attributes_distinct : t.attributes.Pairwise fun a b => ¬(a.name = b.name ∧ a.space = b.space)
  labels : ∀ b ∈ t.namespaces, ∀ label ∈ b.label, IsLocalName label

mutual

/-- All tags of some content are well formed. -/
def Content.TagsWellFormed : Content → Prop
  | .text _ => True
  | .element tag content => tag.WellFormed ∧ Content.AllTagsWellFormed content

def Content.AllTagsWellFormed : List Content → Prop
  | [] => True
  | c :: cs => c.TagsWellFormed ∧ Content.AllTagsWellFormed cs

end

theorem allTagsWellFormed_iff {cs : List Content} :
    Content.AllTagsWellFormed cs ↔ ∀ c ∈ cs, c.TagsWellFormed := by
  induction cs with
  | nil => simp [Content.AllTagsWellFormed]
  | cons c cs ih => simp [Content.AllTagsWellFormed, ih]

mutual

theorem wellFormed_of_mem_placesIn {e : Element} {above : List Element} (base : List Element) :
    ∀ cs : List Content, Content.AllTagsWellFormed cs →
      Place.element e above ∈ placesIn base cs → e.tag.WellFormed
  | [], _, he => by simp [placesIn] at he
  | c :: cs, hcs, he => by
    rw [placesIn, List.mem_append] at he
    rcases he with he | he
    · exact wellFormed_of_mem_placesOf base c hcs.1 he
    · exact wellFormed_of_mem_placesIn base cs hcs.2 he

theorem wellFormed_of_mem_placesOf {e : Element} {above : List Element} (base : List Element) :
    ∀ c : Content, c.TagsWellFormed → Place.element e above ∈ placesOf base c → e.tag.WellFormed
  | .text _, _, he => by simp [placesOf] at he
  | .element tag content, hc, he => by
    rw [placesOf, List.mem_cons] at he
    rcases he with he | he
    · obtain ⟨rfl, -⟩ := Place.element.inj he
      exact hc.1
    · exact wellFormed_of_mem_placesIn (⟨tag, content⟩ :: base) content hc.2 he

end

/-! Drafts -/

/-- What holds while a document is put together. -/
structure Draft.WellFormed (d : Draft) : Prop where
  opened : ∀ o ∈ d.opened, o.tag.WellFormed ∧ ∀ c ∈ o.before, c.TagsWellFormed
  done : ∀ c ∈ d.done, c.TagsWellFormed
  bindings : ∀ b ∈ d.bindings, ∀ label ∈ b.label, IsLocalName label

namespace Draft.WellFormed

variable {d d' : Draft} {name : QName}

theorem empty : Draft.empty.WellFormed := by
  constructor <;> simp [Draft.empty]

theorem references (hd : d.WellFormed) (n : Nat) : { d with references := n }.WellFormed :=
  ⟨hd.opened, hd.done, hd.bindings⟩

theorem add (hd : d.WellFormed) {content : List Content}
    (hcontent : ∀ c ∈ content, c.TagsWellFormed) : (d.add content).WellFormed := by
  refine ⟨hd.opened, ?_, hd.bindings⟩
  intro c hc
  rcases List.mem_append.mp hc with hc | hc
  · exact hcontent c (List.mem_reverse.mp hc)
  · exact hd.done c hc

theorem bind (hd : d.WellFormed) {binding : Namespace}
    (hlabel : ∀ label ∈ binding.label, IsLocalName label) : (d.bind binding).WellFormed := by
  refine ⟨hd.opened, hd.done, ?_⟩
  intro b hb
  rcases List.mem_append.mp hb with hb | hb
  · exact hd.bindings b hb
  · obtain rfl := List.mem_singleton.mp hb
    exact hlabel

theorem declare (hd : d.WellFormed) (hname : IsLocalName name.name) {value : String}
    (h : d.declare name value = .ok d') : d'.WellFormed := by
  unfold Draft.declare at h
  split_ifs at h
  · cases h
    exact hd
  · cases h
    exact hd.bind (by simpa using hname)
  · cases h
    exact hd.bind (by simp)
  · cases h
    exact ⟨hd.opened, hd.done, hd.bindings⟩

end Draft.WellFormed

/-- Attributes are taken only if none before them has the same namespace and name. -/
theorem resolveAttributes_distinct {scope : List Namespace} {written : List (QName × String)}
    {found attributes : List Attribute}
    (hfound : found.Pairwise fun a b => ¬(a.name = b.name ∧ a.space = b.space))
    (h : resolveAttributes scope written found = .ok attributes) :
    attributes.Pairwise fun a b => ¬(a.name = b.name ∧ a.space = b.space) := by
  induction written generalizing found with
  | nil =>
    cases h
    rw [List.pairwise_reverse]
    apply hfound.imp
    rintro a b hab ⟨hname, hspace⟩
    exact hab ⟨hname.symm, hspace.symm⟩
  | cons w rest ih =>
    obtain ⟨name, value⟩ := w
    have hnext (space : Option String) (h : (do
        if found.any fun a => a.name == name.name && a.space == space then
          throw (.duplicateAttribute name.name)
        resolveAttributes scope rest (⟨name.name, space, value⟩ :: found) :
          Except Fault (List Attribute)) = .ok attributes) :
        attributes.Pairwise fun a b => ¬(a.name = b.name ∧ a.space = b.space) := by
      split at h
      · cases h
      · rename_i hnone
        refine ih (List.pairwise_cons.mpr ⟨?_, hfound⟩) h
        rintro b hb ⟨hname, hspace⟩
        apply hnone
        exact List.any_eq_true.mpr ⟨b, hb, by simpa using ⟨hname.symm, hspace.symm⟩⟩
    -- names without a label have no namespace, the others that of their label
    rw [resolveAttributes] at h
    split at h
    · exact hnext _ h
    · obtain ⟨space, -, h⟩ := bind_eq_ok_iff.mp h
      exact hnext space h

namespace Draft.WellFormed

variable {d d' : Draft} {name : QName}

theorem scope (hd : d.WellFormed) : ∀ b ∈ d.scope, ∀ label ∈ b.label, IsLocalName label := by
  unfold Draft.scope
  split
  · simp
  · rename_i o opened hopened
    have ho := hd.opened o (hopened ▸ List.mem_cons_self)
    exact ho.1.labels

/-- At the end of a tag what belongs to it is well formed, and nothing waits any more. -/
theorem settle (hd : d.WellFormed) {scope : List Namespace} {attributes : List Attribute}
    (h : d.settle = .ok (scope, attributes, d')) (start : Nat) (name : String) :
    Tag.WellFormed ⟨start, name, attributes, scope⟩ ∧
      d' = { d with attributes := [], bindings := [] } := by
  obtain ⟨found, hfound, hret⟩ := bind_eq_ok_iff.mp h
  cases hret
  refine ⟨⟨resolveAttributes_distinct .nil hfound, ?_⟩, rfl⟩
  intro b hb
  rcases List.mem_append.mp hb with hb | hb
  · exact hd.bindings b hb
  · exact hd.scope b (List.mem_of_mem_filter hb)

theorem settled (hd : d.WellFormed) : { d with attributes := [], bindings := [] }.WellFormed :=
  ⟨hd.opened, hd.done, by simp⟩

theorem startTag (hd : d.WellFormed) {offset : Nat} {ending : TagEnd}
    (h : d.startTag offset name ending = .ok d') : d'.WellFormed := by
  cases ending with
  | cutOff =>
    cases h
    exact hd
  | empty =>
    obtain ⟨⟨scope, attributes, d₁⟩, hsettle, h⟩ := bind_eq_ok_iff.mp h
    obtain ⟨-, -, hret⟩ := bind_eq_ok_iff.mp h
    obtain ⟨htag, rfl⟩ := hd.settle hsettle offset name.name
    cases hret
    exact hd.settled.add (by simpa [Content.TagsWellFormed, Content.AllTagsWellFormed] using htag)
  | opening =>
    obtain ⟨⟨scope, attributes, d₁⟩, hsettle, h⟩ := bind_eq_ok_iff.mp h
    obtain ⟨-, -, hret⟩ := bind_eq_ok_iff.mp h
    obtain ⟨htag, rfl⟩ := hd.settle hsettle offset name.name
    cases hret
    refine ⟨?_, by simp, by simp⟩
    exact List.forall_mem_cons.mpr ⟨⟨htag, hd.done⟩, hd.opened⟩

theorem endTag (hd : d.WellFormed) (h : d.endTag name = .ok d') : d'.WellFormed := by
  obtain ⟨⟨scope, attributes, d₁⟩, hsettle, h⟩ := bind_eq_ok_iff.mp h
  obtain ⟨-, rfl⟩ := hd.settle hsettle 0 ""
  dsimp only at h
  split at h
  · cases h
  · rename_i o opened hopened
    split at h
    · obtain ⟨htag, hbefore⟩ := hd.opened o (hopened ▸ List.mem_cons_self)
      cases h
      refine ⟨fun x hx => hd.opened x (hopened ▸ List.mem_cons_of_mem _ hx), ?_, by simp⟩
      have hinner : ∀ c ∈ d.done.reverse, c.TagsWellFormed :=
        fun c hc => hd.done c (List.mem_reverse.mp hc)
      exact List.forall_mem_cons.mpr ⟨⟨htag, allTagsWellFormed_iff.mpr hinner⟩, hbefore⟩
    · cases h

/-- A document that is finished has well-formed tags. -/
theorem finish (hd : d.WellFormed) {t : Tree} (h : d.finish = .ok t) :
    Content.AllTagsWellFormed t.content := by
  rw [allTagsWellFormed_iff]
  unfold Draft.finish at h
  split at h
  · cases h
  · split at h
    · rename_i tag content rest hdone
      cases h
      intro c hc
      exact hd.done c (List.mem_reverse.mp (hdone ▸ hc))
    · cases h

end Draft.WellFormed

/-! Putting a document together -/

theorem contentWellFormed_of_run (run : Run) : ∀ c ∈ run.content, c.TagsWellFormed := by
  intro c hc
  unfold Run.content at hc
  split at hc
  · cases hc
  · obtain rfl := List.mem_singleton.mp hc
    trivial

theorem wellFormed_addText {inside : Bool} {expand : String → Draft → Except Fault Draft}
    (hexpand : ∀ name d d', d.WellFormed → expand name d = .ok d' → d'.WellFormed)
    {pieces : List Piece} {run : Run} {d d' : Draft} (hd : d.WellFormed)
    (h : addText inside expand pieces run d = .ok d') : d'.WellFormed := by
  -- text that has not been added yet is kept in `run`; only entities bring in tags
  induction pieces generalizing run d with
  | nil =>
    cases h
    exact hd.add (contentWellFormed_of_run run)
  | cons piece pieces ih =>
    cases piece with
    | literal c =>
      rw [addText] at h
      split at h
      · exact ih hd h
      · exact ih hd h
    | character c =>
      rw [addText] at h
      split at h
      · exact ih hd h
      · exact ih hd h
    | entity name =>
      obtain ⟨d₁, hd₁, h⟩ := bind_eq_ok_iff.mp h
      exact ih (hexpand _ _ _ (hd.add (contentWellFormed_of_run run)) hd₁) h

theorem wellFormed_declareAll {x : Expansion} {written : List WrittenAttribute} {d d' : Draft}
    (hwritten : ∀ a ∈ written, IsLocalName a.name.name) (hd : d.WellFormed)
    (h : declareAll x written d = .ok d') : d'.WellFormed := by
  induction written generalizing d with
  | nil =>
    cases h
    exact hd
  | cons a rest ih =>
    obtain ⟨ha, hrest⟩ := List.forall_mem_cons.mp hwritten
    obtain ⟨pieces, -, h⟩ := bind_eq_ok_iff.mp h
    obtain ⟨⟨value, n⟩, -, h⟩ := bind_eq_ok_iff.mp h
    obtain ⟨d₁, hd₁, h⟩ := bind_eq_ok_iff.mp h
    exact ih hrest ((hd.references n).declare ha hd₁) h

theorem wellFormed_assemble {x : Expansion}
    (hx : ∀ name d d', d.WellFormed → x.inText name d = .ok d' → d'.WellFormed)
    {markup : List Markup} (hmarkup : ∀ m ∈ markup, m.WellFormed) {begun : Bool} {d d' : Draft}
    (hd : d.WellFormed) (h : assemble x markup begun d = .ok d') : d'.WellFormed := by
  induction markup generalizing begun d with
  | nil =>
    cases h
    exact hd
  | cons m rest ih =>
    obtain ⟨hm, hrest⟩ := List.forall_mem_cons.mp hmarkup
    cases m with
    | startTag offset name written ending =>
      obtain ⟨d₁, hd₁, h⟩ := bind_eq_ok_iff.mp h
      obtain ⟨d₂, hd₂, h⟩ := bind_eq_ok_iff.mp h
      exact ih hrest ((wellFormed_declareAll hm hd hd₁).startTag hd₂) h
    | endTag name =>
      rw [assemble] at h
      split at h
      · obtain ⟨d₁, hd₁, h⟩ := bind_eq_ok_iff.mp h
        exact ih hrest (hd.endTag hd₁) h
      · cases h
    | text raw =>
      obtain ⟨pieces, -, h⟩ := bind_eq_ok_iff.mp h
      obtain ⟨d₁, hd₁, h⟩ := bind_eq_ok_iff.mp h
      exact ih hrest (wellFormed_addText hx hd hd₁) h
    | «section» raw =>
      exact ih hrest (hd.add (by simp [Content.TagsWellFormed])) h
    | aside => exact ih hrest hd h

theorem wellFormed_expandContent {entities : List Entity} {levels : Nat} {name : String}
    {d d' : Draft} (hd : d.WellFormed)
    (h : expandContent entities levels name d = .ok d') : d'.WellFormed := by
  -- the levels of entities that are left bound the recursion
  induction levels generalizing name d d' with
  | zero => cases h
  | succ levels ih =>
    obtain ⟨n, -, h⟩ := bind_eq_ok_iff.mp h
    obtain ⟨cursor, -, h⟩ := bind_eq_ok_iff.mp h
    obtain ⟨markup, hmarkup, h⟩ := bind_eq_ok_iff.mp h
    obtain ⟨d₁, hd₁, hret⟩ := bind_eq_ok_iff.mp h
    have hwf := wellFormed_assemble (fun _ _ _ hd h => ih hd h) (contentOf_wellFormed hmarkup)
      (hd.references n) hd₁
    cases hret
    split
    · exact hwf
    · exact hwf.references 0

theorem wellFormed_treeOf {entities : List Entity} {markup : List Markup} {t : Tree}
    (hmarkup : ∀ m ∈ markup, m.WellFormed) (h : treeOf entities markup = .ok t) :
    Content.AllTagsWellFormed t.content := by
  obtain ⟨d, hd, h⟩ := bind_eq_ok_iff.mp h
  have hwf := wellFormed_assemble (fun _ _ _ hd h => wellFormed_expandContent hd h) hmarkup
    .empty hd
  exact hwf.finish h

/-- The tags of a document that has been read are well formed. -/
theorem wellFormed_of_parse {text : String} {t : Tree} (h : parse text = .ok t) :
    Content.AllTagsWellFormed t.content := by
  obtain ⟨⟨tree, c⟩, hread, rfl⟩ := map_eq_ok_iff.mp h
  have hgives : Reader.Gives (do
      let entities ← readProlog
      treeOf entities (← readBody) : Reader Fault Tree)
        fun t => Content.AllTagsWellFormed t.content := by
    refine .bind (.any _) fun entities _ => .bind readBody_gives fun markup hmarkup => ?_
    intro c t d h
    obtain ⟨tree, htree, hret⟩ := bind_eq_ok_iff.mp h
    cases hret
    exact wellFormed_treeOf hmarkup htree
  exact hgives _ _ _ hread

end TransitAudit.Xml

namespace TransitAudit

/-- The elements of a parsed document have well-formed tags. -/
theorem Source.tag_wellFormed_of_parse {s : Source} {d : ParsedDocument} (h : s.parse = .ok d)
    {e : Xml.Element} {above : List Xml.Element} (he : ⟨d, .element e above⟩ ∈ d.elements) :
    e.tag.WellFormed := by
  unfold Source.parse at h
  split at h
  · rename_i tree htree
    cases h
    obtain ⟨e', above', heq, hmem⟩ := ParsedDocument.mem_elements_iff.mp he
    obtain ⟨rfl, rfl⟩ : e = e' ∧ above = above' := by simpa using heq
    exact Xml.wellFormed_of_mem_placesIn [] _ (Xml.wellFormed_of_parse htree) hmem
  · cases h

end TransitAudit
