import Implementors.Markup.Layout
import Implementors.Proofs.Markup
import Mathlib

/-!
# The tags of rendered markup

In rendered markup every `<` opens a tag and every `>` closes one. The tags are the two of each link,
one link for each token that the link table knows, and those that set the where clause on its lines.
Whatever the texts of a header and the entries of the table hold, nothing of it becomes a tag, ends one
early, or leaves the quotes it stands in.
-/
namespace Implementors

namespace Markup

/-- What stands between the angle brackets of a text, in order, if each `<` is closed before the next
one and no other `>` occurs. Inside a tag, its content so far is given. -/
def tagsFrom? : Option Text → Text → Option (List Text)
  | none, [] => some []
  | some _, [] => none
  | none, c :: rest =>
    if c = '<' then tagsFrom? (some []) rest
    else if c = '>' then none
    else tagsFrom? none rest
  | some content, c :: rest =>
    if c = '>' then (tagsFrom? none rest).map (content :: ·)
    else if c = '<' then none
    else tagsFrom? (some (content ++ [c])) rest

/-- Cuts out of a text what stands between each `<` and the next `>`, if these are all the angle
brackets there are. -/
def cutTags? (s : Text) : Option (List Text) := tagsFrom? none s

theorem cutTags?_append {s : Text} (hlt : '<' ∉ s) (hgt : '>' ∉ s) (rest : Text) :
    cutTags? (s ++ rest) = cutTags? rest := by
  induction s with
  | nil => rfl
  | cons c s ih =>
    rw [List.mem_cons, not_or] at hlt hgt
    rw [cutTags?, List.cons_append, tagsFrom?, if_neg (Ne.symm hlt.1), if_neg (Ne.symm hgt.1)]
    exact ih hlt.2 hgt.2

theorem tagsFrom?_append {s : Text} (hlt : '<' ∉ s) (hgt : '>' ∉ s) (content rest : Text) :
    tagsFrom? (some content) (s ++ rest) = tagsFrom? (some (content ++ s)) rest := by
  induction s generalizing content with
  | nil => rw [List.append_nil, List.nil_append]
  | cons c s ih =>
    rw [List.mem_cons, not_or] at hlt hgt
    rw [List.cons_append, tagsFrom?, if_neg (Ne.symm hgt.1), if_neg (Ne.symm hlt.1),
      ih hlt.2 hgt.2, List.append_assoc, List.singleton_append]

theorem cutTags?_angle {content : Text} (hlt : '<' ∉ content) (hgt : '>' ∉ content) (rest : Text) :
    cutTags? ('<' :: content ++ '>' :: rest) = (cutTags? rest).map (content :: ·) := by
  rw [cutTags?, List.cons_append, tagsFrom?, if_pos rfl, tagsFrom?_append hlt hgt, tagsFrom?,
    if_pos rfl, List.nil_append]
  rfl

def Piece.tags : Piece → List Tag
  | .tag t => [t]
  | _ => []

/-- The tags among some pieces, in order. -/
def tags (pieces : List Piece) : List Tag := pieces.flatMap Piece.tags

theorem tags_append (as bs : List Piece) : tags (as ++ bs) = tags as ++ tags bs :=
  List.flatMap_append

/-- Only a piece that is a tag has angle brackets, one of each kind. -/
theorem cutTags?_piece_append (p : Piece) (rest : Text) :
    cutTags? (p.write ++ rest) = (cutTags? rest).map (p.tags.map Tag.content ++ ·) := by
  cases p with
  | text s =>
    have h := cutTags?_append (not_mem_escape (.inl rfl) s)
      (not_mem_escape (.inr (.inl rfl)) s) rest
    exact h.trans Option.map_id'.symm
  | hardSpace =>
    have h := cutTags?_append (s := Piece.hardSpace.write) (by decide) (by decide) rest
    exact h.trans Option.map_id'.symm
  | tag t =>
    have hw : t.write ++ rest = '<' :: t.content ++ '>' :: rest := by simp [Tag.write]
    have h := cutTags?_angle (t.not_mem_content (.inl rfl)) (t.not_mem_content (.inr rfl)) rest
    rw [← hw] at h
    exact h

/-- The tags of written pieces are the tags among them. -/
theorem cutTags?_write (pieces : List Piece) :
    cutTags? (write pieces) = some ((tags pieces).map Tag.content) := by
  induction pieces with
  | nil => rfl
  | cons p pieces ih =>
    have hw : write (p :: pieces) = p.write ++ write pieces := rfl
    have ht : tags (p :: pieces) = p.tags ++ tags pieces := rfl
    rw [hw, cutTags?_piece_append, ih, ht, List.map_append]
    rfl

/-- A value that shows a text, and neither ends the quotes around it nor the tag it stands in. -/
structure Quotes (value s : Text) : Prop where
  shows : toText value = s
  quote_not_mem : '"' ∉ value
  lt_not_mem : '<' ∉ value
  gt_not_mem : '>' ∉ value

theorem quotes_escape (s : Text) : Quotes (escape s) s where
  shows := by
    have h := (reaches_escape s []).toText_eq
    rwa [toText_nil, List.append_nil, List.append_nil] at h
  quote_not_mem := not_mem_escape (.inr (.inr rfl)) s
  lt_not_mem := not_mem_escape (.inl rfl) s
  gt_not_mem := not_mem_escape (.inr (.inl rfl)) s

/-- What a tag may hold: its name, and in a link the class, the href and the title of its target, the
title only if the target has a path. -/
def Tag.MayHold : Tag → Text → Prop
  | .link ⟨kind, href, none⟩, content =>
    ∃ h, Quotes h href ∧
      content = "a class=\"".toList ++ kind.word ++ "\" href=\"".toList ++ h ++ ['"']
  | .link ⟨kind, href, some path⟩, content =>
    ∃ h p, Quotes h href ∧ Quotes p path ∧
      content = "a class=\"".toList ++ kind.word ++ "\" href=\"".toList ++ h ++
        "\" title=\"".toList ++ kind.word ++ ' ' :: p ++ ['"']
  | .linkEnd, content => content = "/a".toList
  | .whereClause, content => content = "span class=\"where fmt-newline\"".toList
  | .whereClauseEnd, content => content = "/span".toList
  | .lineBreak, content => content = "br".toList

theorem Tag.mayHold_content (t : Tag) : t.MayHold t.content := by
  cases t with
  | link target =>
    obtain ⟨kind, href, path⟩ := target
    cases path with
    | none => exact ⟨escape href, quotes_escape href, rfl⟩
    | some path =>
      refine ⟨escape href, escape path, quotes_escape href, quotes_escape path, ?_⟩
      rw [content_link]
      simp
  | linkEnd => rfl
  | whereClause => rfl
  | whereClauseEnd => rfl
  | lineBreak => rfl

end Markup

open Markup

/-- The tags around the known names of a text: a link for each token that the table has. -/
def LinkTable.tags (links : LinkTable) (s : Text) : List Tag :=
  s.tokens.flatMap fun name =>
    match links.get? name with
    | some target => [.link target, .linkEnd]
    | none => []

theorem LinkTable.tags_linked (links : LinkTable) (s : Text) :
    Markup.tags (links.linked s) = links.tags s := by
  have ht : ∀ name, Markup.tags (links.token name) =
      match links.get? name with
      | some target => [.link target, .linkEnd]
      | none => [] := by
    intro name
    rw [LinkTable.token]
    cases links.get? name <;> rfl
  rw [linked, Markup.tags, List.flatMap_assoc]
  exact List.flatMap_congr fun name _ => ht name

namespace Header

/-- The tags around the names in the parts of a header, part by part, and those of the where clause:
one that opens it with a line break behind it, a line break between two predicates, and one that
closes it. -/
def tags (links : LinkTable) (h : Header) : List Tag :=
  if h.isVerbatim then links.tags h.typeName
  else
    (if h.generics.isEmpty then [] else links.tags h.generics) ++ links.tags h.traitName ++
      links.tags h.typeName ++
        if h.predicates.isEmpty then []
        else
          [.whereClause, .lineBreak] ++ [Tag.lineBreak].intercalate (h.predicates.map links.tags) ++
            [.whereClauseEnd]

theorem tags_predicateLines (links : LinkTable) (predicates : List Text) :
    Markup.tags (predicateLines links predicates) =
      [Tag.lineBreak].intercalate (predicates.map links.tags) := by
  have hl : ∀ p, Markup.tags ([Piece.hardSpace, .hardSpace, .hardSpace, .hardSpace] ++
      links.linked p ++ [.text [',']]) = links.tags p := by
    intro p
    rw [tags_append, tags_append, LinkTable.tags_linked]
    exact List.append_nil _
  rw [predicateLines, Markup.tags, Text.flatMap_intercalate, List.map_map]
  exact congrArg _ (List.map_congr_left fun p _ => hl p)

theorem tags_whereClause (links : LinkTable) (predicates : List Text) :
    Markup.tags (whereClause links predicates) =
      if predicates.isEmpty then []
      else
        [.whereClause, .lineBreak] ++ [Tag.lineBreak].intercalate (predicates.map links.tags) ++
          [.whereClauseEnd] := by
  rw [whereClause]
  split
  · rfl
  · rw [tags_append, tags_append, tags_predicateLines]
    rfl

theorem tags_layout (links : LinkTable) (h : Header) :
    Markup.tags (h.layout links) = h.tags links := by
  have ht : ∀ s, Markup.tags [.text s] = [] := fun _ => rfl
  have hg : Markup.tags (if h.generics.isEmpty then []
      else [Piece.text ['<']] ++ links.linked h.generics ++ [Piece.text ['>']]) =
        if h.generics.isEmpty then [] else links.tags h.generics := by
    split
    · rfl
    · rw [tags_append, tags_append, LinkTable.tags_linked, ht, ht, List.append_nil, List.nil_append]
  rw [layout, tags]
  split
  · exact links.tags_linked h.typeName
  · simp only [tags_append, LinkTable.tags_linked, tags_whereClause, hg, ht, List.append_nil,
      List.nil_append]

/-- The markup of a header has no angle brackets but those of its tags. These are the links around the
tokens that the table knows, in the order of the parts and of the tokens in each, and the tags of the
where clause. Each holds what it may, the href and the path in a link being read back as the table
gives them. The tokens of a text are its longest runs of name characters and its other characters. -/
theorem render_has_only_its_tags (links : LinkTable) (h : Header) :
    (∃ contents, cutTags? (h.render links) = some contents ∧
        List.Forall₂ Tag.MayHold (h.tags links) contents) ∧
      ∀ (s : Text) (tokens : List Text), s.tokens = tokens ↔ Text.Tokenizes tokens s := by
  refine ⟨⟨(h.tags links).map Tag.content, ?_, ?_⟩, fun s tokens => Text.tokens_eq_iff⟩
  · rw [render, cutTags?_write, tags_layout]
  · exact List.forall₂_map_right_iff.2 (List.forall₂_same.2 fun t _ => t.mayHold_content)

/-- A name is linked where it stands alone, and what its href holds stays in the quotes. -/
example :
    let links : LinkTable := ⟨[("X".toList, ⟨.struct, "\">".toList, none⟩)], by decide⟩
    cutTags? ((Header.ofNames "XX<X>".toList "T".toList).render links) =
      some ["a class=\"struct\" href=\"&quot;&gt;\"".toList, "/a".toList] := by
  decide

end Header
end Implementors
