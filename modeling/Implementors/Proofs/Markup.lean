import Implementors.Markup.Layout
import Implementors.Proofs.Link
import Implementors.Proofs.Markup.Reading
import Implementors.Proofs.Text.Cutting
import Mathlib

/-!
# Reading written markup

Markup is read back piece by piece: whatever text follows, a written piece is read as what is seen of
it, and reading goes on behind it. So text comes back unchanged, whatever its characters, and a link
leaves nothing of itself behind.
-/
namespace Implementors.Markup

/-- Escaped text has none of the characters that end a tag or a quoted value. -/
theorem not_mem_escape {c : Char} (hc : c = '<' ∨ c = '>' ∨ c = '"') (s : Text) : c ∉ escape s := by
  intro h
  obtain ⟨d, -, hd⟩ := List.mem_flatMap.1 h
  rw [escapeChar.eq_def] at hd
  split at hd
  · rcases hc with rfl | rfl | rfl <;> simp at hd
  · rcases hc with rfl | rfl | rfl <;> simp at hd
  · rcases hc with rfl | rfl | rfl <;> simp at hd
  · rcases hc with rfl | rfl | rfl <;> simp at hd
  · next hlt hgt _ hquote =>
    obtain rfl := List.mem_singleton.1 hd
    rcases hc with rfl | rfl | rfl
    · exact hlt rfl
    · exact hgt rfl
    · exact hquote rfl

theorem not_mem_word {c : Char} (hc : c = '<' ∨ c = '>') (kind : ItemKind) : c ∉ kind.word := by
  rcases hc with rfl | rfl <;> cases kind <;> decide

namespace Tag

theorem content_link (target : LinkTarget) :
    (link target).content =
      "a class=\"".toList ++ target.kind.word ++ "\" href=\"".toList ++ escape target.href ++
        '"' :: match target.path with
          | none => []
          | some path => " title=\"".toList ++ target.kind.word ++ ' ' :: escape path ++ ['"'] :=
  rfl

/-- What a tag holds neither closes it early nor opens another one, whatever the names and paths in
it. -/
theorem not_mem_content {c : Char} (hc : c = '<' ∨ c = '>') (t : Tag) : c ∉ t.content := by
  have hfixed : ∀ s : Text, '<' ∉ s ∧ '>' ∉ s → c ∉ s := by
    rintro s ⟨hlt, hgt⟩
    rcases hc with rfl | rfl
    · exact hlt
    · exact hgt
  cases t with
  | link target =>
    have hw := not_mem_word hc target.kind
    have he := not_mem_escape (hc.imp_right .inl)
    have hquote : c ≠ '"' := by rcases hc with rfl | rfl <;> decide
    have hspace : c ≠ ' ' := by rcases hc with rfl | rfl <;> decide
    rw [content_link]
    simp only [List.mem_append, List.mem_cons, not_or]
    refine ⟨⟨⟨⟨hfixed _ (by decide), hw⟩, hfixed _ (by decide)⟩, he _⟩, hquote, ?_⟩
    cases target.path with
    | none => exact List.not_mem_nil
    | some path =>
      simp only [List.mem_append, List.mem_cons, not_or]
      exact ⟨⟨⟨hfixed _ (by decide), hw⟩, hspace, he path⟩, hquote, List.not_mem_nil⟩
  | linkEnd => exact hfixed _ (by decide)
  | whereClause => exact hfixed _ (by decide)
  | whereClauseEnd => exact hfixed _ (by decide)
  | lineBreak => exact hfixed _ (by decide)

end Tag

/-- A tag whose name does not begin with a `b` breaks no line. -/
theorem isLineBreak_cons {c : Char} (hs : c ≠ '/') (hb : Text.isBlank c = false)
    (hl : c.toLower ≠ 'b') (content : Text) : isLineBreak (c :: content) = false := by
  have hd : Text.dropEndWhile (· == '/') (c :: content) =
      c :: Text.dropEndWhile (· == '/') content :=
    Text.dropEndWhile_cons (p := (· == '/')) (beq_eq_false_iff_ne.2 hs) _
  have ht : Text.trim (c :: Text.dropEndWhile (· == '/') content) =
      c :: Text.trimEnd (Text.dropEndWhile (· == '/') content) := by
    rw [Text.trim, Text.trimStart_cons hb]
    exact Text.dropEndWhile_cons hb _
  unfold isLineBreak
  rw [hd, ht]
  simp [hl]

theorem isLineBreak_content (t : Tag) : isLineBreak t.content = (t == .lineBreak) := by
  cases t with
  | link target => exact isLineBreak_cons (by decide) rfl (by decide) _
  | linkEnd => decide
  | whereClause => decide
  | whereClauseEnd => decide
  | lineBreak => decide

/-- A piece is read as what is seen of it. -/
theorem reaches_piece (p : Piece) (rest : Text) : Reaches (p.write ++ rest) p.plain rest := by
  cases p with
  | text s => exact reaches_escape s rest
  | hardSpace => exact .of_step ((Reference.mk .nbsp (by decide)).step rest)
  | tag t =>
    have hw : t.write ++ rest = '<' :: t.content ++ '>' :: rest := by simp [Tag.write]
    have hp : (Piece.tag t).plain = if isLineBreak t.content then ['\n'] else [] := by
      rw [isLineBreak_content]
      cases t <;> rfl
    change Reaches (t.write ++ rest) _ rest
    rw [hw, hp]
    exact .of_step (.tag (t.not_mem_content (.inr rfl)))

theorem reaches_write (pieces : List Piece) (rest : Text) :
    Reaches (write pieces ++ rest) (plain pieces) rest := by
  induction pieces with
  | nil => exact .refl rest
  | cons p pieces ih =>
    have hw : write (p :: pieces) = p.write ++ write pieces := rfl
    rw [hw, List.append_assoc]
    exact (reaches_piece p _).trans ih

theorem toText_write (pieces : List Piece) : toText (write pieces) = plain pieces := by
  simpa using (reaches_write pieces []).toText_eq

theorem plain_append (as bs : List Piece) : plain (as ++ bs) = plain as ++ plain bs :=
  List.flatMap_append

theorem plain_intercalate (separator : List Piece) (parts : List (List Piece)) :
    plain (separator.intercalate parts) = (plain separator).intercalate (parts.map plain) :=
  Text.flatMap_intercalate Piece.plain separator parts

theorem plain_token (links : LinkTable) (name : Text) : plain (links.token name) = name := by
  rw [LinkTable.token]
  cases links.get? name <;> simp [plain, Piece.plain]

/-- Links do not show in the text. -/
theorem plain_linked (links : LinkTable) (s : Text) : plain (links.linked s) = s := by
  have ht : ∀ tokens : List Text, plain (tokens.flatMap links.token) = tokens.flatten := by
    intro tokens
    induction tokens with
    | nil => rfl
    | cons token tokens ih =>
      rw [List.flatMap_cons, plain_append, plain_token, ih, List.flatten_cons]
  rw [LinkTable.linked, ht, (Text.tokenizes_tokens s).flatten]

end Implementors.Markup
