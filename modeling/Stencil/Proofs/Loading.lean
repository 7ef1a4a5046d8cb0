import Stencil.Proofs.Quotation

/-! # Loading a document

Compressing goes piece by piece (`compress_append`): horizontal space goes, signs and quotations stay. No
other character is lost on the way (`count_normalizeEach`). -/

namespace Stencil.Placeholder
open Text

/-- What is left of a piece. -/
def compressed : Piece Unit → Text
  | .plain c => if isGap c then [] else [c]
  | .hit _ run => run

theorem compress_append {u s : Text} {ps : List (Piece Unit)} (h : quotePieces (u ++ s) = ps ++ quotePieces s) :
    compress (u ++ s) = ps.flatMap compressed ++ compress s := by
  show (quotePieces (u ++ s)).flatMap compressed = ps.flatMap compressed ++ (quotePieces s).flatMap compressed
  rw [h, List.flatMap_append]

theorem flatMap_compressed_gap {gap : Text} (hgap : ∀ c ∈ gap, isGap c = true) :
    (gap.map .plain).flatMap compressed = [] := by
  rw [List.flatMap_map, List.flatMap_eq_nil_iff]
  exact fun c hc => if_pos (hgap c hc)

theorem flatMap_compressed_signs {u : Text} (hu : ∀ c ∈ u, isGap c = false) :
    (u.map .plain).flatMap compressed = u := by
  induction u with
  | nil => rfl
  | cons c u ih =>
    have hc : compressed (.plain c) = [c] := if_neg (by simp [hu c List.mem_cons_self])
    rw [List.map_cons, List.flatMap_cons, hc, ih fun d hd => hu d (List.mem_cons_of_mem _ hd)]; rfl

theorem compress_gap {gap : Text} (hgap : ∀ c ∈ gap, isGap c = true) (s : Text) :
    compress (gap ++ s) = compress s := by
  rw [compress_append (quotePieces_signs (fun c hc => not_isQuote_of_isGap (hgap c hc)) s),
    flatMap_compressed_gap hgap, List.nil_append]

theorem compress_braced {body out : Text} (h : compress (body ++ closing) = out ++ compress closing) :
    compress (braced body) = braced out := by
  have hopen : compress (opening ++ (body ++ closing)) = opening ++ compress (body ++ closing) := by
    rw [compress_append (quotePieces_signs (by decide) _), flatMap_compressed_signs (by decide)]
  rw [braced, List.append_assoc, hopen, h, show compress closing = closing by decide, braced, List.append_assoc]

theorem count_compress {c : Char} (hc : isGap c = false) (p : Text) : (compress p).count c = p.count c := by
  conv_rhs => rw [← texts_quotePieces p]
  rw [show compress p = (quotePieces p).flatMap compressed from rfl]
  induction quotePieces p with
  | nil => rfl
  | cons q qs ih =>
    rw [List.flatMap_cons, List.count_append, ih]
    cases q with
    | hit a t => rw [Piece.texts_hit, List.count_append, compressed]
    | plain d =>
      rw [Piece.texts_plain, List.count_cons, Nat.add_comm, compressed]
      by_cases hd : isGap d = true
      · have hne : d ≠ c := fun h => by rw [h, hc] at hd; cases hd
        simp [hd, hne]
      · simp [hd, List.count_singleton]

theorem count_normalizeEach {c : Char} (hc : isGap c = false) {s out : Text} {ps : List Text}
    (h : normalizeEach s ps = .ok out) : out.count c = s.count c := by
  induction ps generalizing s with
  | nil => cases h; rfl
  | cons p ps ih =>
    rw [normalizeEach] at h
    split at h
    · rw [ih h]
      split
      · rfl
      · exact count_replace_eq (count_compress hc p)
    · cases h

end Stencil.Placeholder
