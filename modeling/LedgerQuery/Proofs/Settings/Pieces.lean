import LedgerQuery.Settings.Override
import Mathlib.Data.List.Infix

namespace LedgerQuery

/-- The text falls into these pieces. Up to the end of a mark that ends a piece no other one begins in the piece. -/
inductive Splits (mark : List Char) : List Char → List (List Char) → Prop
  | last {piece : List Char} (free : ¬mark <:+: piece) : Splits mark piece [piece]
  | first {piece rest : List Char} {ps : List (List Char)} (free : ¬mark <:+: piece ++ mark.dropLast)
      (others : Splits mark rest ps) : Splits mark (piece ++ mark ++ rest) (piece :: ps)

/-- Pieces that can be told apart where they are joined by the mark: in none of them it begins. -/
structure Separable (mark : List Char) (ps : List (List Char)) : Prop where
  nonempty : ps ≠ []
  free : ∀ p ∈ ps, ¬mark <:+: p
  ends : ∀ p ∈ ps.dropLast, ¬mark <:+: p ++ mark.dropLast

variable {mark piece cs rest : List Char} {ps : List (List Char)}

theorem pieces_at_mark (h : mark ≠ []) (piece rest : List Char) :
    pieces mark piece (mark ++ rest) = piece.reverse :: pieces mark [] rest := by
  obtain ⟨c, mark, rfl⟩ := List.exists_cons_of_ne_nil h
  have hprefix : (c :: mark).isPrefixOf (c :: (mark ++ rest)) = true :=
    List.isPrefixOf_iff_prefix.mpr (List.prefix_append (c :: mark) rest)
  rw [List.cons_append, pieces, if_pos hprefix, List.length_cons, Nat.add_sub_cancel, List.drop_left]

theorem pieces_off_mark {c : Char} (h : ¬mark <+: c :: cs) (piece : List Char) :
    pieces mark piece (c :: cs) = pieces mark (c :: piece) cs := by
  rw [pieces, if_neg (mt List.isPrefixOf_iff_prefix.mp h)]

theorem pieces_of_free (free : ¬mark <:+: cs) (piece : List Char) :
    pieces mark piece cs = [piece.reverse ++ cs] := by
  induction cs generalizing piece with
  | nil => rw [pieces, List.append_nil]
  | cons c cs ih =>
      rw [List.infix_cons_iff, not_or] at free
      rw [pieces_off_mark free.1, ih free.2, List.reverse_cons, List.append_assoc, List.singleton_append]

theorem dropLast_prefix_append (piece mark rest : List Char) : piece ++ mark.dropLast <+: piece ++ mark ++ rest := by
  rw [List.append_assoc, List.prefix_append_right_inj]
  exact (List.dropLast_prefix mark).trans (List.prefix_append mark rest)

theorem prefix_of_prefix_append (h : mark <+: piece ++ mark ++ rest) (hpiece : piece ≠ []) :
    mark <+: piece ++ mark.dropLast := by
  refine List.prefix_of_prefix_length_le h (dropLast_prefix_append piece mark rest) ?_
  have hlength := List.length_pos_iff.mpr hpiece
  rw [List.length_append, List.length_dropLast]
  omega

theorem pieces_of_first (h : mark ≠ []) (free : ¬mark <:+: cs ++ mark.dropLast) (piece rest : List Char) :
    pieces mark piece (cs ++ mark ++ rest) = (piece.reverse ++ cs) :: pieces mark [] rest := by
  induction cs generalizing piece with
  | nil => rw [List.nil_append, pieces_at_mark h, List.append_nil]
  | cons c cs ih =>
      rw [List.cons_append, List.infix_cons_iff, not_or] at free
      have hoff : ¬mark <+: c :: (cs ++ mark ++ rest) := fun hprefix =>
        free.1 (prefix_of_prefix_append hprefix (List.cons_ne_nil c cs))
      rw [List.cons_append, List.cons_append, pieces_off_mark hoff, ih free.2, List.reverse_cons, List.append_assoc,
        List.singleton_append]

theorem Splits.pieces_eq (h : mark ≠ []) (splits : Splits mark cs ps) : pieces mark [] cs = ps := by
  induction splits with
  | last free => exact pieces_of_free free []
  | first free _ ih => rw [pieces_of_first h free, ih, List.reverse_nil, List.nil_append]

theorem exists_first (h : mark ≠ []) (within : mark <:+: cs) :
    ∃ piece rest, cs = piece ++ mark ++ rest ∧ ¬mark <:+: piece ++ mark.dropLast := by
  have hlength : ¬mark <:+: mark.dropLast := by
    intro hinfix
    have hle := hinfix.length_le
    have hpos := List.length_pos_iff.mpr h
    rw [List.length_dropLast] at hle
    omega
  induction cs with
  | nil => exact absurd (List.infix_nil.mp within) h
  | cons c cs ih =>
      by_cases hprefix : mark <+: c :: cs
      · obtain ⟨rest, hrest⟩ := hprefix
        exact ⟨[], rest, hrest.symm, hlength⟩
      · obtain ⟨piece, rest, rfl, hfree⟩ := ih ((List.infix_cons_iff.mp within).resolve_left hprefix)
        refine ⟨c :: piece, rest, rfl, fun hinfix => ?_⟩
        obtain hprefix' | hinfix := List.infix_cons_iff.mp hinfix
        · exact hprefix (hprefix'.trans (dropLast_prefix_append (c :: piece) mark rest))
        · exact hfree hinfix

theorem exists_splits (h : mark ≠ []) (cs : List Char) : ∃ ps, Splits mark cs ps := by
  induction hlength : cs.length using Nat.strongRecOn generalizing cs with
  | ind n ih =>
      by_cases hinfix : mark <:+: cs
      · obtain ⟨piece, rest, rfl, hfree⟩ := exists_first h hinfix
        have hshorter : rest.length < n := by
          have hpos := List.length_pos_iff.mpr h
          rw [← hlength, List.length_append, List.length_append]
          omega
        obtain ⟨ps, hps⟩ := ih _ hshorter rest rfl
        exact ⟨piece :: ps, .first hfree hps⟩
      · exact ⟨[cs], .last hinfix⟩

theorem pieces_eq_iff (h : mark ≠ []) : pieces mark [] cs = ps ↔ Splits mark cs ps := by
  refine ⟨fun hpieces => ?_, fun splits => splits.pieces_eq h⟩
  obtain ⟨ps', splits⟩ := exists_splits h cs
  rwa [← hpieces, splits.pieces_eq h]

theorem Splits.ne_nil (splits : Splits mark cs ps) : ps ≠ [] := by
  cases splits <;> exact List.cons_ne_nil _ _

theorem splits_iff : Splits mark cs ps ↔ cs = mark.intercalate ps ∧ Separable mark ps := by
  constructor
  · intro splits
    induction splits with
    | last free => exact ⟨by simp, by simp, by simpa using free, by simp⟩
    | @first piece rest ps free others ih =>
        obtain ⟨rfl, separable⟩ := ih
        refine ⟨(List.intercalate_cons_of_ne_nil others.ne_nil).symm, List.cons_ne_nil piece ps, ?_, ?_⟩
        · refine List.forall_mem_cons.mpr ⟨fun hinfix => free ?_, separable.free⟩
          exact hinfix.trans (List.prefix_append piece mark.dropLast).isInfix
        · rw [List.dropLast_cons_of_ne_nil others.ne_nil]
          exact List.forall_mem_cons.mpr ⟨free, separable.ends⟩
  · rintro ⟨rfl, separable⟩
    induction ps with
    | nil => exact absurd rfl separable.nonempty
    | cons piece ps ih =>
        obtain ⟨-, free, ends⟩ := separable
        by_cases hps : ps = []
        · subst hps
          have hlast := Splits.last (free piece (List.mem_singleton_self piece))
          simpa using hlast
        · rw [List.dropLast_cons_of_ne_nil hps] at ends
          rw [List.intercalate_cons_of_ne_nil hps]
          obtain ⟨hpiece, hends⟩ := List.forall_mem_cons.mp ends
          exact .first hpiece (ih ⟨hps, fun p hp => free p (List.mem_cons_of_mem _ hp), hends⟩)

end LedgerQuery
