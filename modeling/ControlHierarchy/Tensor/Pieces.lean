/-!
# Pieces of one length

A list in row-major order is cut into rows. `pieces width count l` are the first
`count` pieces of `width` elements each; when `l` has just as many elements,
cutting loses nothing (`flatten_pieces`), and lists of one length that were put
behind each other are found again (`pieces_flatten`).
-/

namespace ControlHierarchy

variable {α : Type}

def pieces (width : Nat) : (count : Nat) → List α → List (List α)
  | 0, _ => []
  | count + 1, l => l.take width :: pieces width count (l.drop width)

@[simp] theorem length_pieces (width count : Nat) (l : List α) :
    (pieces width count l).length = count := by
  induction count generalizing l with
  | zero => rfl
  | succ count ih => simp [pieces, ih]

theorem length_of_mem_pieces {width count : Nat} {l : List α} (h : l.length = count * width) :
    ∀ r ∈ pieces width count l, r.length = width := by
  induction count generalizing l with
  | zero => simp [pieces]
  | succ count ih =>
    rw [Nat.succ_mul] at h
    intro r hr
    rcases List.mem_cons.1 hr with rfl | hr
    · simp only [List.length_take]; omega
    · exact ih (by simp only [List.length_drop]; omega) r hr

theorem flatten_pieces {width count : Nat} {l : List α} (h : l.length = count * width) :
    (pieces width count l).flatten = l := by
  induction count generalizing l with
  | zero =>
    rw [Nat.zero_mul, List.length_eq_zero_iff] at h
    simp [pieces, h]
  | succ count ih =>
    rw [Nat.succ_mul] at h
    rw [pieces, List.flatten_cons, ih (by simp only [List.length_drop]; omega),
      List.take_append_drop]

theorem pieces_flatten {width : Nat} {rows : List (List α)} (h : ∀ r ∈ rows, r.length = width) :
    pieces width rows.length rows.flatten = rows := by
  induction rows with
  | nil => rfl
  | cons r rows ih =>
    have hr := h r List.mem_cons_self
    rw [List.length_cons, pieces, List.flatten_cons, List.take_left' hr, List.drop_left' hr,
      ih fun s hs => h s (List.mem_cons_of_mem r hs)]

theorem pieces_map {β : Type} (f : α → β) (width count : Nat) (l : List α) :
    pieces width count (l.map f) = (pieces width count l).map (·.map f) := by
  induction count generalizing l with
  | zero => rfl
  | succ count ih => rw [pieces, pieces, List.map_cons, List.map_take, ← List.map_drop, ih]

theorem pieces_zipWith {β γ : Type} (f : α → β → γ) (width count count' : Nat) (l : List α)
    (l' : List β) :
    pieces width (min count count') (List.zipWith f l l') =
      List.zipWith (List.zipWith f) (pieces width count l) (pieces width count' l') := by
  induction count generalizing count' l l' with
  | zero => rw [Nat.zero_min, pieces, pieces, List.zipWith_nil_left]
  | succ count ih =>
    cases count' with
    | zero => rw [Nat.min_zero, pieces, pieces, List.zipWith_nil_right]
    | succ count' =>
      rw [Nat.succ_min_succ, pieces, pieces, pieces, List.zipWith_cons_cons, List.take_zipWith,
        List.drop_zipWith, ih]

theorem pieces_append {width count count' : Nat} {l l' : List α} (h : l.length = count * width) :
    pieces width (count + count') (l ++ l') = pieces width count l ++ pieces width count' l' := by
  induction count generalizing l with
  | zero =>
    rw [Nat.zero_mul, List.length_eq_zero_iff] at h
    simp [pieces, h]
  | succ count ih =>
    rw [Nat.succ_mul] at h
    have long : width ≤ l.length := by omega
    rw [Nat.succ_add, pieces, pieces, List.take_append_of_le_length long,
      List.drop_append_of_le_length long, ih (by simp only [List.length_drop]; omega),
      List.cons_append]

theorem length_flatten {width : Nat} {rows : List (List α)} (h : ∀ r ∈ rows, r.length = width) :
    rows.flatten.length = rows.length * width := by
  induction rows with
  | nil => simp
  | cons r rows ih =>
    rw [List.flatten_cons, List.length_append, h r List.mem_cons_self,
      ih fun s hs => h s (List.mem_cons_of_mem r hs), List.length_cons, Nat.succ_mul, Nat.add_comm]

end ControlHierarchy
