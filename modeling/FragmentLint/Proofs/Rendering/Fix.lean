import FragmentLint.Proofs.Grammar.Concrete
import FragmentLint.Proofs.Rendering.Mended

/-!
Contract: what a fix makes of what is rendered.

What a fix leaves between the tags of an element or fragment is read there again, if no hidden line
is among it (`contents_of_mended`). Main statements: then the same is rendered if and only if the
texts that meet are compiled alike together and apart (`rendered_of_fix_eq_iff`), which is not
always so (`fix_changes_rendering`).
-/

namespace FragmentLint

open Rendering

namespace Outline

variable {source : Text} {pragmas : Pragmas}

/-- The outline that becomes the node of a number. -/
def numbered (source : Text) (root : SyntaxNode) (id : Nat) : Option Outline :=
  (entriesAll none (roots source [] root))[id]?.map (·.outline)

/-- Whether an outline is an element or a fragment that is read at a place of a source. -/
def IsReadAt [SyntaxParser] (dialect : Dialect) (source : Text) (start : Nat) (outline : Outline) :
    Prop :=
  outline.kind.isTagged = true ∧ outline.span.start = start
    ∧ ∃ root id, SyntaxParser.parse? dialect source = some root ∧ root.hasError = false
      ∧ numbered source root id = some outline

/-- An element or fragment that is read, by what is told of it. -/
theorem exists_isReadAt [SyntaxParser] {dialect : Dialect} {id start : Nat} {α : Type}
    {told : Outline → α} {value : α}
    (read : (SyntaxParser.parse? dialect source).map (fun root =>
        (root.hasError, (numbered source root id).map fun outline =>
          (outline.kind.isTagged, outline.span.start, told outline)))
      = some (false, some (true, start, value))) :
    ∃ root outline, SyntaxParser.parse? dialect source = some root
      ∧ numbered source root id = some outline ∧ IsReadAt dialect source start outline
      ∧ told outline = value := by
  obtain ⟨root, parsed, parts⟩ := Option.map_eq_some_iff.1 read
  obtain ⟨sound, parts⟩ := Prod.mk.inj parts
  obtain ⟨outline, isOutline, parts⟩ := Option.map_eq_some_iff.1 parts
  obtain ⟨tagged, parts⟩ := Prod.mk.inj parts
  obtain ⟨starts, told⟩ := Prod.mk.inj parts
  exact ⟨root, outline, parsed, isOutline, ⟨tagged, starts, root, id, parsed, sound, isOutline⟩,
    told⟩

open SyntaxNode in
/-- An element or fragment that has children is read off an element. -/
theorem Written.exists_element {root : SyntaxNode} {parent : Option NodeKind} {outline : Outline}
    (lawful : root.Lawful source) (written : Written source root parent outline)
    (tagged : outline.kind.isTagged = true) (occupied : outline.children ≠ []) :
    ∃ above, ∃ element ∈ root.parts, element.kind = .jsxElement
      ∧ outline = ofMarkup source above element
      ∧ ∃ opening closing nodes, element.Pair opening closing nodes
        ∧ outline.kind.tags? = some ⟨opening.span, some closing.span⟩ := by
  obtain ⟨above, part, inRoot, markup, rfl⟩ := written.exists_markup tagged
  rcases kind_of_isMarkup markup with single | ⟨paired, isElement⟩
  · rw [ofMarkup_of_selfClosing (by simpa using single)] at occupied
    exact absurd rfl occupied
  · obtain ⟨opening, closing, nodes, pair⟩ :=
      ((lawful.part inRoot).isComplete.element isElement).exists_pair
    refine ⟨above, part, inRoot, isElement, rfl, opening, closing, nodes, pair, ?_⟩
    rw [ofMarkup_of_tags paired pair.opens pair.closes, tags?_ofTags]

/-- What stands between the tags of markup in a source without hidden lines there may be spliced in.
-/
theorem spliced_of_written {root : SyntaxNode} (lawful : root.Lawful source)
    (textApart : root.SetsTextApart source)
    {parent : Option NodeKind} {outline : Outline} (written : Written source root parent outline)
    (tagged : outline.kind.isTagged = true)
    (unhidden : ∀ raw, .text raw ∈ contents source pragmas outline.children →
      ¬ Text.hiddenMark <:+: raw) :
    ∀ content ∈ contents source pragmas outline.children, Spliced source root pragmas content := by
  obtain ⟨above, part, inRoot, markup, rfl⟩ := written.exists_markup tagged
  intro content member
  refine (readFrom_of_markup lawful textApart inRoot markup content member).spliced ?_
  rintro raw rfl
  exact unhidden raw member

/-- The entries of a node and of its parent, for the outlines that become these. -/
theorem exists_entries {root : SyntaxNode} {id : Nat} {node : Node} {own above : Outline}
    (known : (Tree.ofSyntax source root).node? id = some node)
    (isOwn : numbered source root id = some own)
    (isAbove : node.parent.bind (numbered source root) = some above) :
    ∃ entry aboveEntry, (entriesAll none (roots source [] root))[id]? = some entry
      ∧ aboveEntry ∈ entriesAll none (roots source [] root)
      ∧ entry.outline = own ∧ aboveEntry.outline = above ∧ own ∈ above.children := by
  have lists := Tree.lists_pushAll source (root.comments.map (Comment.ofNode source))
    (roots source [] root)
  obtain ⟨entry, listed, describes⟩ := lists.exists_entry known
  obtain ⟨ownEntry, ownListed, rfl⟩ := Option.map_eq_some_iff.1 isOwn
  rw [listed] at ownListed
  obtain rfl := Option.some.inj ownListed
  obtain ⟨parentId, isParent, parentAbove⟩ := Option.bind_eq_some_iff.1 isAbove
  obtain ⟨aboveEntry, aboveListed, rfl⟩ := Option.map_eq_some_iff.1 parentAbove
  obtain ⟨parentEntry, parentListed, isChild⟩ := describes.under parentId isParent
  rw [aboveListed] at parentListed
  obtain rfl := Option.some.inj parentListed
  exact ⟨entry, aboveEntry, listed, List.mem_of_getElem? aboveListed, rfl, rfl, isChild⟩

section Parser

variable [SyntaxParser] [LawfulSyntaxParser] [LocalSyntaxParser] {dialect : Dialect}
  {mendedSource : Text} {root mendedRoot : SyntaxNode}

open SyntaxNode

/-- What is put between the tags of an element is read there again. -/
theorem contents_again
    (parsed : SyntaxParser.parse? dialect source = some root) (sound : root.hasError = false)
    {put : List Content} (apart : put.IsChain Content.Apart)
    (spliced : ∀ content ∈ put, Spliced source root pragmas content)
    {element opening closing : SyntaxNode} {nodes : List SyntaxNode}
    (inRoot : element ∈ root.parts) (isElement : element.kind = .jsxElement)
    (pair : element.Pair opening closing nodes) {front inner back : Text}
    (whole : source = front ++ (inner ++ back)) (opens : Text.bytes front = opening.span.stop)
    (closes : closing.span.start = opening.span.stop + Text.bytes inner)
    {again : Outline}
    (isRead : IsReadAt dialect (front ++ (Content.spellAll put ++ back)) element.span.start again) :
    contents (front ++ (Content.spellAll put ++ back)) pragmas again.children = put := by
  obtain ⟨tagged, start, mendedRoot, id, parsed', sound', isNumbered⟩ := isRead
  have lawful := LawfulSyntaxParser.lawful parsed sound
  have lawful' := LawfulSyntaxParser.lawful parsed' sound'
  have inOpening := mem_parts_of_child pair.mem_opening inRoot
  have inClosing := mem_parts_of_child pair.mem_closing inRoot
  -- The tags stand at the back of the text in front and at the front of the text behind.
  obtain ⟨first, isFirst⟩ := (lawful.part inOpening).stands.own
  obtain ⟨last, isLast⟩ := (lawful.part inClosing).stands.own
  obtain ⟨before, rfl, beforeSize⟩ := Text.exists_front_of_slice? isFirst whole opens
  obtain ⟨rest, rfl⟩ := Text.exists_back_of_slice? isLast
    (whole.trans (List.append_assoc _ _ _).symm) (by rw [Text.bytes_append, opens, closes])
  obtain ⟨entry, listed, rfl⟩ := Option.map_eq_some_iff.1 isNumbered
  obtain ⟨above, part, inRoot', markup, outlineEq⟩ :=
    (written_roots lawful' entry (List.mem_of_getElem? listed)).exists_markup tagged
  have taggedAt := @taggedAt_ofMarkup _ above part (lawful'.part inRoot') markup
  rw [outlineEq, taggedAt.span] at start
  have opensAlike {tag : SyntaxNode} (inRoot' : tag ∈ mendedRoot.parts)
      (isOpening : tag.isOpening = true) (starts : tag.span.start = element.span.start) :
      tag.kind = .jsxOpening ∧ Text.bytes (before ++ first) = tag.span.stop := by
    have isOpening' : opening.isOpening = true := by
      rw [SyntaxNode.isOpening, pair.kindOpening]
      rfl
    obtain ⟨kind, stop⟩ := opening_eq parsed sound parsed' sound' inOpening isOpening' inRoot'
      isOpening isFirst (List.append_assoc _ _ _)
      (starts.trans (pair.first.symm.trans beforeSize.symm))
    exact ⟨kind.trans pair.kindOpening, (Text.bytes_append _ _).trans stop.symm⟩
  rw [outlineEq]
  rcases kind_of_isMarkup markup with single | ⟨paired, isElement'⟩
  · have isOpening' : part.isOpening = true := by
      rw [SyntaxNode.isOpening, single]
      rfl
    have kind := (opensAlike inRoot' isOpening' start).1
    rw [single] at kind
    cases kind
  · obtain ⟨opening', closing', nodes', pair'⟩ :=
      ((lawful'.part inRoot').isComplete.element isElement').exists_pair
    have isOpening' : opening'.isOpening = true := by
      rw [SyntaxNode.isOpening, pair'.kindOpening]
      rfl
    have stop := (opensAlike (mem_parts_of_child pair'.mem_opening inRoot') isOpening'
      (pair'.first.trans start)).2
    exact contents_eq parsed sound parsed' sound' apart spliced
      (pair.closing_mem_nexts inRoot isElement) pair.kindClosing isLast inRoot' isElement' pair' rfl
      stop

/-- What a fix leaves between the tags of an element or fragment is read there again. -/
theorem contents_of_mended
    (parsed : SyntaxParser.parse? dialect source = some root) (sound : root.hasError = false)
    {parent ownParent : Option NodeKind} {above wrapper : Outline} {before after : List Outline}
    (aboveWritten : Written source root parent above)
    (ownWritten : Written source root ownParent wrapper)
    (tagged : above.kind.isTagged = true) (ownTagged : wrapper.kind.isTagged = true)
    (placed : Placed source above) (split : above.children = before ++ wrapper :: after)
    (unhidden : ∀ raw, .text raw ∈ contents source pragmas (above.children ++ wrapper.children) →
      ¬ Text.hiddenMark <:+: raw)
    {tags : Tags} (tagsEq : above.kind.tags? = some tags) {front back : Text}
    (whole : source = front ++ (Content.spellAll (contents source pragmas above.children) ++ back))
    (opens : Text.bytes front = tags.inner.start) {again : Outline}
    (isRead : IsReadAt dialect
      (front ++ (Content.spellAll (mended source pragmas before wrapper after) ++ back))
      above.span.start again) :
    contents (front ++ (Content.spellAll (mended source pragmas before wrapper after) ++ back))
        pragmas again.children
      = mended source pragmas before wrapper after := by
  have lawful := LawfulSyntaxParser.lawful parsed sound
  have textApart := LocalSyntaxParser.setsTextApart parsed sound
  have inner := @Placed.inner_contents source pragmas _ _ placed tagsEq
  have apart := (placed.holds tagsEq).apart
  obtain ⟨ancestors, element, inRoot, isElement, aboveEq, opening, closing, nodes, pair,
      ownTagsEq⟩ :=
    aboveWritten.exists_element lawful tagged (by simp [split])
  obtain rfl := Option.some.inj (tagsEq.symm.trans ownTagsEq)
  have start : above.span.start = element.span.start := by
    have markup : element.isMarkup = true := by
      rw [isMarkup, isElement]
      rfl
    rw [aboveEq, (taggedAt_ofMarkup (lawful.part inRoot) markup).span]
  unfold contents at unhidden
  simp only [List.map_append, List.mem_append] at unhidden
  have around := spliced_of_written lawful textApart aboveWritten tagged
    fun raw member => unhidden raw (Or.inl member)
  have inside := spliced_of_written lawful textApart ownWritten ownTagged
    fun raw member => unhidden raw (Or.inr member)
  rw [split] at apart around
  unfold contents at around
  rw [List.map_append, List.map_cons, List.forall_mem_append, List.forall_mem_cons] at around
  obtain ⟨beforeApart, behindApart, -⟩ := List.isChain_append.1 apart
  rw [start] at isRead
  exact contents_again parsed sound
    (isChain_mended beforeApart (List.isChain_cons.1 behindApart).2)
    (spliced_mended around.1 inside around.2.2) inRoot isElement pair whole opens inner.stop_eq
    isRead

end Parser

end Outline

section Parser

variable [SyntaxParser] [LawfulSyntaxParser] [LocalSyntaxParser]

/-- What an element or fragment renders after a fragment among its children was fixed. The fix puts
the contents of the fragment in its place. Where no hidden line is among the texts, these contents
are read again there, and the element or fragment renders what it rendered before if and only if the
texts that meet are compiled alike together and apart. -/
theorem rendered_of_fix_eq_iff {dialect : Dialect} {source : Text} {settings : Settings}
    {reports : List Report} {report : Report} {edit : Edit}
    (checked : lint settings dialect source = .ok reports) (member : report ∈ reports)
    (fixed : report.fix = some edit) :
    ∃ root tree pragmas mended,
      SyntaxParser.parse? dialect source = some root
      ∧ Tree.ofSource dialect source = .ok tree
      ∧ Pragmas.resolve tree.comments settings = .ok pragmas
      ∧ Edit.applyAll source [edit] = some mended
      ∧ (∃ id, tree.ReportsOn pragmas id report)
      ∧ ∀ id node wrapper above, tree.ReportsOn pragmas id report → tree.node? id = some node →
        Outline.numbered source root id = some wrapper →
        node.parent.bind (Outline.numbered source root) = some above →
        above.kind.isTagged = true →
        wrapper.span = report.range ∧ wrapper ∈ above.children
        ∧ ∀ before after, above.children = before ++ wrapper :: after →
          (∃ front back,
            source = front
              ++ (Content.spellAll (Outline.contents source pragmas above.children) ++ back)
            ∧ mended = front
              ++ (Content.spellAll (Outline.mended source pragmas before wrapper after) ++ back))
          ∧ ((∀ raw,
              .text raw ∈ Outline.contents source pragmas (above.children ++ wrapper.children)
              → ¬ Text.hiddenMark <:+: raw) →
            ∀ again, Outline.IsReadAt dialect mended above.span.start again →
              Outline.contents mended pragmas again.children
                  = Outline.mended source pragmas before wrapper after
              ∧ (Outline.renderedAll mended pragmas again.children
                  = Outline.renderedAll source pragmas above.children
                ↔ Outline.KeepsRendering source pragmas before wrapper after)) := by
  obtain ⟨tree, pragmas, accepted, resolved, found⟩ := lint_eq_ok_iff.1 checked
  obtain ⟨root, parsed, sound, rfl⟩ := Tree.ofSource_eq_ok_iff.1 accepted
  obtain ⟨reportedId, -, reportedOn⟩ := Tree.exists_reportsOn found report member
  obtain ⟨⟨piece, delimits⟩, ranges⟩ := report_delimits checked member
  have range := ranges edit fixed
  obtain ⟨mended, applied⟩ := @Edit.exists_applyAll source [edit] (by
    intro only isOnly
    rw [List.mem_singleton.1 isOnly, range]
    exact ⟨piece, delimits⟩)
  refine ⟨root, _, pragmas, mended, parsed, accepted, resolved, applied,
    ⟨reportedId, reportedOn⟩, ?_⟩
  intro id node wrapper above reportsOn known isWrapperOutline isAbove tagged
  have lawful := LawfulSyntaxParser.lawful parsed sound
  have records := Tree.records_ofSyntax lawful
  have written := Outline.written_roots lawful
  have sourceEq := Tree.source_ofSyntax source root
  obtain ⟨site, isSite, rangeEq, isReason, removed⟩ := reportsOn.exists_site
  obtain ⟨entry, aboveEntry, listed, aboveIsEntry, rfl, rfl, isChild⟩ :=
    Outline.exists_entries known isWrapperOutline isAbove
  rw [records.lists.site?_eq_map_entries, listed, Option.map_some] at isSite
  obtain rfl := Option.some.inj isSite
  rw [fixed] at removed
  refine ⟨rangeEq.symm, isChild, ?_⟩
  intro before after split
  have placed := records.placed aboveEntry aboveIsEntry
  have isEntry := List.mem_of_getElem? listed
  have ownPlaced := records.placed entry isEntry
  obtain ⟨isWrapper, keyless⟩ := Site.isWrapper_of_mem_reasons isReason
  obtain ⟨ownTags, ownTagsEq⟩ := NodeKind.exists_tags_of_isWrapper isWrapper
  have spelled := @Outline.spellAll_mended pragmas _ before after _ ownPlaced _ _ removed rfl rfl
  rw [sourceEq] at placed ownPlaced spelled
  obtain ⟨tags, tagsEq⟩ := NodeKind.exists_tags tagged
  obtain ⟨front, back, whole, opens, replaced⟩ := @Outline.exists_replaced source pragmas _ _ _ _ _
    placed tagsEq split edit (range.trans rangeEq)
  rw [applied, ← spelled, Option.some.injEq] at replaced
  refine ⟨⟨front, back, whole, replaced⟩, fun unhidden again isRead => ?_⟩
  have contentsEq : Outline.contents mended pragmas again.children
      = Outline.mended source pragmas before entry.outline after := by
    rw [replaced] at isRead ⊢
    exact Outline.contents_of_mended parsed sound (written aboveEntry aboveIsEntry)
      (written entry isEntry) tagged (NodeKind.isTagged_of_tags? ownTagsEq) placed split unhidden
      tagsEq whole opens isRead
  refine ⟨contentsEq, ?_⟩
  rw [Outline.renderedAll_eq again.children, contentsEq]
  exact Outline.piecesAll_mended_eq_iff placed tagsEq split ownTagsEq isWrapper keyless

end Parser

/-! ## Two scripts -/

namespace Samples

open SyntaxNode

/-- A script with a fragment in it, and what a fix makes of it. -/
def scripts : List Text := ["<p>a <>b</></p>".toList, "<p>a b</p>".toList]

/-- A parser of the two scripts. It gives up on everything else. -/
scoped instance parser : SyntaxParser :=
  ⟨fun dialect source =>
    if dialect = .javascript ∧ source ∈ scripts then some (Grammar.concrete dialect source)
    else none⟩

theorem parse?_eq_some_iff {dialect : Dialect} {source : Text} {root : SyntaxNode} :
    SyntaxParser.parse? dialect source = some root ↔
      (dialect = .javascript ∧ source ∈ scripts) ∧ Grammar.concrete dialect source = root := by
  show (if _ then _ else _) = _ ↔ _
  rw [Option.ite_none_right_eq_some, Option.some.injEq]

scoped instance lawfulParser : LawfulSyntaxParser where
  standsIn {dialect source root} parsed := by
    obtain ⟨-, rfl⟩ := parse?_eq_some_iff.1 parsed
    exact (Grammar.lawful_concrete dialect source).stands
  complete {dialect source root} parsed _ := by
    obtain ⟨-, rfl⟩ := parse?_eq_some_iff.1 parsed
    exact (Grammar.lawful_concrete dialect source).complete

/-- Whether what stands between the first and the last child of an element is set apart. -/
def fillsElement (source : Text) (element : SyntaxNode) : Bool :=
  match element.children with
  | opening :: rest => rest.getLast?.all fun closing =>
    fillsTags source opening.span.stop rest.dropLast closing.span.start
  | [] => true

/-- A node counted from its own beginning. -/
def fromStart (node : SyntaxNode) : SyntaxNode :=
  node.mapSpans fun span => ⟨span.start - node.span.start, span.stop - node.span.start⟩

theorem setsTextApart : ∀ source ∈ scripts,
    (Grammar.concrete .javascript source).SetsTextApart source := by
  intro source isScript
  have texts : ∀ source ∈ scripts, ∀ element ∈ (Grammar.concrete .javascript source).parts,
      element.kind = .jsxElement → fillsElement source element = true := by
    decide +kernel
  have visible : ∀ source ∈ scripts, ∀ next ∈ (Grammar.concrete .javascript source).nexts,
      ∀ piece ∈ Text.slice? source next.span.start next.span.stop,
        ¬ Text.Comparable piece Text.hiddenMark := by
    decide +kernel
  have emptyFragment : ∀ source ∈ scripts, ∀ next ∈ (Grammar.concrete .javascript source).nexts,
      ∀ piece ∈ Text.slice? source next.span.start next.span.stop,
        ¬ Text.Comparable piece "<></>".toList := by
    decide +kernel
  refine ⟨?_, fun next isNext piece => visible source isScript next isNext piece,
    fun next isNext piece delimits comparable =>
      absurd comparable (emptyFragment source isScript next isNext piece delimits)⟩
  intro element inRoot isElement opening content closing children
  have filled := texts source isScript element inRoot isElement
  unfold fillsElement at filled
  rw [children] at filled
  simpa using filled

theorem readsAlike : ∀ source ∈ scripts, ∀ source' ∈ scripts,
    ReadsAlike source source' (Grammar.concrete .javascript source)
      (Grammar.concrete .javascript source') := by
  have opening : ∀ source ∈ scripts, ∀ source' ∈ scripts,
      ∀ tag ∈ (Grammar.concrete .javascript source).parts, tag.isOpening = true →
      ∀ tag' ∈ (Grammar.concrete .javascript source').parts, tag'.isOpening = true →
      ∀ piece ∈ Text.slice? source tag.span.start tag.span.stop,
      ∀ piece' ∈ Text.slice? source' tag'.span.start tag'.span.stop,
        piece <+: piece' → piece = piece' ∧ tag.kind = tag'.kind := by
    decide +kernel
  have next : ∀ source ∈ scripts, ∀ source' ∈ scripts,
      ∀ next ∈ (Grammar.concrete .javascript source).nexts,
      ∀ next' ∈ (Grammar.concrete .javascript source').nexts,
      ∀ piece ∈ Text.slice? source next.span.start next.span.stop,
      ∀ piece' ∈ Text.slice? source' next'.span.start next'.span.stop,
        piece <+: piece' → next = (fromStart next).shift next.span.start
          ∧ next' = (fromStart next).shift next'.span.start := by
    decide +kernel
  intro source isScript source' isScript'
  refine ⟨fun tag inRoot isOpening tag' inRoot' isOpening' piece piece' delimits delimits' =>
    opening source isScript source' isScript' tag inRoot isOpening tag' inRoot' isOpening' piece
      delimits piece' delimits',
    fun node isNext node' isNext' piece piece' delimits delimits' shorter =>
    ⟨fromStart node, next source isScript source' isScript' node isNext node' isNext' piece delimits
      piece' delimits' shorter⟩⟩

scoped instance localParser : LocalSyntaxParser where
  setsTextApart {dialect source root} parsed _ := by
    obtain ⟨⟨rfl, isScript⟩, rfl⟩ := parse?_eq_some_iff.1 parsed
    exact setsTextApart source isScript
  readsAlike {dialect source source' root root'} parsed _ parsed' _ := by
    obtain ⟨⟨rfl, isScript⟩, rfl⟩ := parse?_eq_some_iff.1 parsed
    obtain ⟨⟨-, isScript'⟩, rfl⟩ := parse?_eq_some_iff.1 parsed'
    exact readsAlike source isScript source' isScript'

end Samples

open Samples in
/-- Behind one text a fragment with a text in it is kept apart by a space on the same line. -/
theorem rendered_of_fix_eq_iff_on_line :
    ∃ above again, Outline.IsReadAt .javascript "<p>a <>b</></p>".toList 0 above
      ∧ Outline.IsReadAt .javascript "<p>a b</p>".toList 0 again
      ∧ Edit.applyAll "<p>a <>b</></p>".toList [⟨⟨5, 11⟩, "b".toList⟩] = some "<p>a b</p>".toList
      ∧ Outline.contents "<p>a b</p>".toList default again.children = [.text "a b".toList]
      ∧ Outline.renderedAll "<p>a b</p>".toList default again.children
        = Outline.renderedAll "<p>a <>b</></p>".toList default above.children := by
  have linted : (lint .unset .javascript "<p>a <>b</></p>".toList).toOption
      = some [⟨⟨5, 11⟩, .needsMoreChildren, some ⟨⟨5, 11⟩, "b".toList⟩⟩,
        ⟨⟨5, 11⟩, .childOfHostElement, some ⟨⟨5, 11⟩, "b".toList⟩⟩] := by
    decide +kernel
  have edited : Edit.applyAll "<p>a <>b</></p>".toList [⟨⟨5, 11⟩, "b".toList⟩]
      = some "<p>a b</p>".toList := by
    decide +kernel
  have nodes : (Tree.ofSource .javascript "<p>a <>b</></p>".toList).toOption.map (fun tree =>
      ((Pragmas.resolve tree.comments .unset).toOption, (tree.reportsAt default 3).toOption,
        tree.node? 3))
      = some (some default, some [⟨⟨5, 11⟩, .needsMoreChildren, some ⟨⟨5, 11⟩, "b".toList⟩⟩,
          ⟨⟨5, 11⟩, .childOfHostElement, some ⟨⟨5, 11⟩, "b".toList⟩⟩],
        some ⟨.fragment ⟨⟨5, 7⟩, some ⟨8, 11⟩⟩, ⟨5, 11⟩, some 1, [4]⟩) := by
    decide +kernel
  have aboveRead : (SyntaxParser.parse? .javascript "<p>a <>b</></p>".toList).map (fun root =>
      (root.hasError, (Outline.numbered "<p>a <>b</></p>".toList root 1).map fun above =>
        (above.kind.isTagged, above.span.start,
          Outline.contents "<p>a <>b</></p>".toList default above.children)))
      = some (false, some (true, 0, [.text "a ".toList, .other "<>b</>".toList [.char 'b']])) := by
    decide +kernel
  have wrapperParts : (SyntaxParser.parse? .javascript "<p>a <>b</></p>".toList).map (fun root =>
      (Outline.numbered "<p>a <>b</></p>".toList root 3).map fun wrapper => (wrapper.isVacant,
        Outline.content "<p>a <>b</></p>".toList default wrapper,
        Outline.contents "<p>a <>b</></p>".toList default wrapper.children))
      = some (some (false, .other "<>b</>".toList [.char 'b'], [.text "b".toList])) := by
    decide +kernel
  have againRead : (SyntaxParser.parse? .javascript "<p>a b</p>".toList).map (fun root =>
      (root.hasError, (Outline.numbered "<p>a b</p>".toList root 1).map fun again =>
        (again.kind.isTagged, again.span.start, again.children.length)))
      = some (false, some (true, 0, 1)) := by
    decide +kernel
  obtain ⟨root, tree, pragmas, mended, parsed, accepted, resolved, applied, -, onFragment⟩ :=
    rendered_of_fix_eq_iff (ok_of_toOption linted) List.mem_cons_self rfl
  rw [edited] at applied
  obtain rfl := Option.some.inj applied
  rw [accepted, Except.toOption, Option.map_some, Option.some.injEq, Prod.mk.injEq, Prod.mk.injEq]
    at nodes
  obtain ⟨resolvedDefault, reported, known⟩ := nodes
  rw [resolved] at resolvedDefault
  obtain rfl : pragmas = default := Option.some.inj resolvedDefault
  obtain ⟨root', above, parsed', isAbove, aboveIsRead, aboveContents⟩ :=
    Outline.exists_isReadAt aboveRead
  obtain rfl := Option.some.inj (parsed.symm.trans parsed')
  obtain ⟨-, again, -, -, isRead, -⟩ := Outline.exists_isReadAt againRead
  rw [parsed, Option.map_some, Option.some.injEq] at wrapperParts
  obtain ⟨wrapper, isWrapper, wrapperEq⟩ := Option.map_eq_some_iff.1 wrapperParts
  simp only [Prod.mk.injEq] at wrapperEq
  obtain ⟨occupied, wrapperContent, wrapperContents⟩ := wrapperEq
  obtain ⟨-, isChild, decided⟩ := onFragment 3 _ wrapper above
    ⟨_, ok_of_toOption reported, List.mem_cons_self⟩ known isWrapper isAbove aboveIsRead.1
  obtain ⟨before, after, split⟩ := List.append_of_mem isChild
  obtain ⟨-, rendersAlike⟩ := decided before after split
  have unhidden : ∀ raw, Content.text raw ∈ Outline.contents "<p>a <>b</></p>".toList default
      (above.children ++ wrapper.children) → ¬ Text.hiddenMark <:+: raw := by
    intro raw member
    unfold Outline.contents at member aboveContents wrapperContents
    rw [List.map_append, aboveContents, wrapperContents] at member
    have texts : raw = "a ".toList ∨ raw = "b".toList := by simpa using member
    rcases texts with rfl | rfl <;> decide
  have parts : Outline.contents "<p>a <>b</></p>".toList default before = [.text "a ".toList]
      ∧ Outline.contents "<p>a <>b</></p>".toList default after = [] := by
    rw [split, Outline.contents, List.map_append, List.map_cons, wrapperContent] at aboveContents
    cases first : before with
    | nil =>
      rw [first] at aboveContents
      cases aboveContents
    | cons head rest =>
      rw [first, List.map_cons, List.cons_append, List.cons.injEq] at aboveContents
      obtain ⟨headContent, others⟩ := aboveContents
      have lengths := congrArg List.length others
      simp only [List.length_append, List.length_cons, List.length_map, List.length_nil] at lengths
      obtain rfl : rest = [] := List.eq_nil_of_length_eq_zero (by omega)
      obtain rfl : after = [] := List.eq_nil_of_length_eq_zero (by omega)
      exact ⟨congrArg (· :: []) headContent, rfl⟩
  have mendedEq : Outline.mended "<p>a <>b</></p>".toList default before wrapper after
      = [.text "a b".toList] := by
    rw [Outline.mended, parts.1, parts.2, wrapperContents, occupied]
    decide
  have keeps : Outline.KeepsRendering "<p>a <>b</></p>".toList default before wrapper after := by
    rw [Outline.KeepsRendering, parts.1, parts.2, wrapperContents, occupied]
    decide
  rw [aboveIsRead.2.1] at rendersAlike
  obtain ⟨contentsEq, keepsIff⟩ := rendersAlike unhidden again isRead
  exact ⟨above, again, aboveIsRead, isRead, edited, contentsEq.trans mendedEq, keepsIff.2 keeps⟩

open Scripts in
/-- A fix may change what is rendered: a line end between a text and a fragment renders nothing, but
it renders a space when it comes to stand between two words. -/
theorem fix_changes_rendering :
    ∃ reports report edit above again,
      lint .unset .javascript "<p>a\n<>b</></p>".toList = .ok reports ∧ report ∈ reports
      ∧ report.fix = some edit
      ∧ Edit.applyAll "<p>a\n<>b</></p>".toList [edit] = some "<p>a\nb</p>".toList
      ∧ Outline.IsReadAt .javascript "<p>a\n<>b</></p>".toList 0 above
      ∧ (above.children.map Outline.span).contains report.range = true
      ∧ Outline.IsReadAt .javascript "<p>a\nb</p>".toList 0 again
      ∧ Outline.renderedAll "<p>a\n<>b</></p>".toList default above.children
        = string "ab".toList
      ∧ Outline.renderedAll "<p>a\nb</p>".toList default again.children
        = string "a b".toList := by
  have linted : (lint .unset .javascript "<p>a\n<>b</></p>".toList).toOption
      = some [⟨⟨5, 11⟩, .needsMoreChildren, some ⟨⟨5, 11⟩, "b".toList⟩⟩,
        ⟨⟨5, 11⟩, .childOfHostElement, some ⟨⟨5, 11⟩, "b".toList⟩⟩] := by
    decide +kernel
  have aboveRead : (SyntaxParser.parse? .javascript "<p>a\n<>b</></p>".toList).map (fun root =>
      (root.hasError, (Outline.numbered "<p>a\n<>b</></p>".toList root 1).map fun above =>
        (above.kind.isTagged, above.span.start,
          Outline.renderedAll "<p>a\n<>b</></p>".toList default above.children)))
      = some (false, some (true, 0, string "ab".toList)) := by
    decide +kernel
  have reported : (SyntaxParser.parse? .javascript "<p>a\n<>b</></p>".toList).map (fun root =>
      (Outline.numbered "<p>a\n<>b</></p>".toList root 1).map fun above =>
        (above.children.map Outline.span).contains ⟨5, 11⟩)
      = some (some true) := by
    decide +kernel
  have againRead : (SyntaxParser.parse? .javascript "<p>a\nb</p>".toList).map (fun root =>
      (root.hasError, (Outline.numbered "<p>a\nb</p>".toList root 1).map fun again =>
        (again.kind.isTagged, again.span.start,
          Outline.renderedAll "<p>a\nb</p>".toList default again.children)))
      = some (false, some (true, 0, string "a b".toList)) := by
    decide +kernel
  obtain ⟨root, above, parsed, isAbove, aboveIsRead, rendered⟩ := Outline.exists_isReadAt aboveRead
  obtain ⟨-, again, -, -, againIsRead, renderedAgain⟩ := Outline.exists_isReadAt againRead
  rw [parsed, Option.map_some, Option.some.injEq, isAbove, Option.map_some, Option.some.injEq]
    at reported
  exact ⟨_, _, _, above, again, ok_of_toOption linted, List.mem_cons_self, rfl, by decide +kernel,
    aboveIsRead, reported, againIsRead, rendered, renderedAgain⟩

end FragmentLint
