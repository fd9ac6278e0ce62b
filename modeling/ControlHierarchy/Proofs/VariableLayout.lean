import ControlHierarchy.Proofs.Double.Selecting
import ControlHierarchy.VariableLayout

/-!
# Layouts as partitions

A layout stores names and sizes only; where a variable begins is added up when it
is asked for. The segments of a layout are consecutive, and every position of the
decision vector lies in exactly one of them (`VariableLayout.exists_unique_holder`).
A variable is selected by rows with a single one each, in the columns of its
segment. So the variables take a vector of finite doubles apart without losing a
number (`VariableLayout.mapM_extract`), and the rows of all variables, piled in
their order, are those of the identity (`VariableLayout.foldlM_pile`).

Both of these go through the variables one by one, and at each of them what is
there so far ends where its segment begins.
-/

namespace ControlHierarchy

namespace VariableLayout

/-- The sizes of segments together. -/
def total (segments : List (String × Nat)) : Nat := (segments.map Prod.snd).sum

@[simp] theorem total_nil : total [] = 0 := rfl

@[simp] theorem total_cons (v : String × Nat) (rest : List (String × Nat)) :
    total (v :: rest) = v.2 + total rest := rfl

@[simp] theorem total_append (a b : List (String × Nat)) : total (a ++ b) = total a + total b := by
  rw [total, List.map_append, List.sum_append, total, total]

theorem size_eq_total (l : VariableLayout) : l.size = total l.segments := by
  rw [size]
  induction l.segments with
  | nil => rfl
  | cons v rest ih => rw [List.foldr_cons, ih, total_cons]

@[ext] theorem ext {l m : VariableLayout} (h : l.segments = m.segments) : l = m := by
  cases l
  cases h
  rfl

/-! ### Which names and sizes make a layout -/

theorem add_eq_ok {l m : VariableLayout} {name : String} {size : Int} :
    l.add name size = .ok m ↔
      name ∉ l.names ∧ 0 ≤ size ∧ m.segments = l.segments ++ [(name, size.toNat)] := by
  rw [add]
  constructor
  · intro h
    split at h
    · cases h
    · next fresh =>
      split at h
      · cases h
      · next natural =>
        cases h
        exact ⟨fresh, Int.not_lt.1 natural, rfl⟩
  · rintro ⟨fresh, natural, made⟩
    rw [dif_neg fresh, if_neg (Int.not_lt.2 natural)]
    exact congrArg Except.ok (ext made.symm)

theorem ofPairs_concat (pairs : List (String × Int)) (p : String × Int) :
    ofPairs (pairs ++ [p]) = ofPairs pairs >>= fun l => l.add p.1 p.2 := by
  rw [ofPairs, List.foldlM_append]
  refine congrArg _ (funext fun l => ?_)
  rw [List.foldlM_cons]
  exact bind_pure _

theorem ofPairs_eq_ok {pairs : List (String × Int)} {l : VariableLayout} :
    ofPairs pairs = .ok l ↔ (pairs.map Prod.fst).Nodup ∧ (∀ p ∈ pairs, 0 ≤ p.2) ∧
      l.segments = pairs.map fun p => (p.1, p.2.toNat) := by
  induction pairs using List.reverseRecOn generalizing l with
  | nil =>
    rw [ofPairs, List.foldlM_nil, pure_eq_ok, VariableLayout.ext_iff, empty]
    simp [eq_comm]
  | append_singleton pairs p ih =>
    have names {m : VariableLayout} (made : m.segments = pairs.map fun p => (p.1, p.2.toNat)) :
        m.names = pairs.map Prod.fst := by
      rw [VariableLayout.names, made, List.map_map]
      rfl
    have distinct : ((pairs ++ [p]).map Prod.fst).Nodup ↔
        (pairs.map Prod.fst).Nodup ∧ p.1 ∉ pairs.map Prod.fst := by
      rw [List.map_append, List.map_singleton, ← List.concat_eq_append, List.nodup_concat, and_comm]
    have sizes : (∀ q ∈ pairs ++ [p], 0 ≤ q.2) ↔ (∀ q ∈ pairs, 0 ≤ q.2) ∧ 0 ≤ p.2 := by
      rw [List.forall_mem_append, List.forall_mem_singleton]
    rw [ofPairs_concat, bind_eq_ok, distinct, sizes, List.map_append, List.map_singleton]
    constructor
    · rintro ⟨m, first, last⟩
      obtain ⟨apart, natural, made⟩ := ih.1 first
      obtain ⟨fresh, last, added⟩ := add_eq_ok.1 last
      rw [names made] at fresh
      exact ⟨⟨apart, fresh⟩, ⟨natural, last⟩, made ▸ added⟩
    · rintro ⟨⟨apart, fresh⟩, ⟨natural, last⟩, added⟩
      let m : VariableLayout := ⟨pairs.map fun p => (p.1, p.2.toNat), by
        rw [List.map_map]
        exact apart⟩
      exact ⟨m, ih.2 ⟨apart, natural, rfl⟩, add_eq_ok.2 ⟨names (m := m) rfl ▸ fresh, last, added⟩⟩

/-- The first pair that cannot be added decides what a layout is refused with. -/
theorem ofPairs_refused {pre post : List (String × Int)} {p : String × Int} {e : Error}
    (distinct : (pre.map Prod.fst).Nodup) (sizes : ∀ q ∈ pre, 0 ≤ q.2)
    (refused : ∀ l : VariableLayout, l.names = pre.map Prod.fst → l.add p.1 p.2 = .error e) :
    ofPairs (pre ++ p :: post) = .error e := by
  let l : VariableLayout := ⟨pre.map fun p => (p.1, p.2.toNat), by
    rw [List.map_map]
    exact distinct⟩
  have ready : ofPairs pre = .ok l := ofPairs_eq_ok.2 ⟨distinct, sizes, rfl⟩
  have names : l.names = pre.map Prod.fst := List.map_map
  rw [ofPairs] at ready
  rw [ofPairs, List.foldlM_append, ready, ok_bind, List.foldlM_cons, refused l names]
  rfl

theorem add_duplicate {l : VariableLayout} {name : String} {size : Int} (taken : name ∈ l.names) :
    l.add name size = .error (.duplicateVariable name) :=
  dif_pos taken

theorem add_negative {l : VariableLayout} {name : String} {size : Int} (fresh : name ∉ l.names)
    (negative : size < 0) : l.add name size = .error (.negativeVariable name size) :=
  (dif_neg fresh).trans (if_pos negative)

/-! ### Where segments begin -/

theorem locate?_append {pre post : List (String × Nat)} {v : String × Nat} {start : Nat}
    (fresh : v.1 ∉ pre.map Prod.fst) :
    locate? v.1 start (pre ++ v :: post) = some (start + total pre, v.2) := by
  induction pre generalizing start with
  | nil => rw [List.nil_append, locate?, if_pos rfl, total_nil, Nat.add_zero]
  | cons u pre ih =>
    rw [List.map_cons, List.mem_cons, not_or] at fresh
    rw [List.cons_append, locate?, if_neg (Ne.symm fresh.1), ih fresh.2, total_cons, Nat.add_assoc]

theorem locate_eq_ok {l : VariableLayout} {pre post : List (String × Nat)} {v : String × Nat}
    (split : l.segments = pre ++ v :: post) : l.locate v.1 = .ok (total pre, v.2) := by
  have distinct := l.distinct
  rw [split, List.map_append, List.map_cons, List.nodup_append] at distinct
  have fresh : v.1 ∉ pre.map Prod.fst := fun twice =>
    distinct.2.2 v.1 twice v.1 List.mem_cons_self rfl
  rw [locate, split, locate?_append fresh, Nat.zero_add]

theorem mem_of_locate? {name : String} {segments : List (String × Nat)} {start : Nat}
    {found : Nat × Nat} (h : locate? name start segments = some found) :
    name ∈ segments.map Prod.fst := by
  induction segments generalizing start with
  | nil => cases h
  | cons v segments ih =>
    rw [locate?] at h
    rw [List.map_cons, List.mem_cons]
    split at h
    · next same => exact .inl same.symm
    · exact .inr (ih h)

/-- A variable has its segment behind those of the variables before it. -/
theorem exists_split {l : VariableLayout} {name : String} {start length : Nat}
    (located : l.locate name = .ok (start, length)) :
    ∃ pre post, l.segments = pre ++ (name, length) :: post ∧ start = total pre := by
  have member : name ∈ l.segments.map Prod.fst := by
    rw [locate] at located
    split at located
    · next found => exact mem_of_locate? found
    · cases located
  obtain ⟨v, hv, rfl⟩ := List.mem_map.1 member
  obtain ⟨pre, post, split⟩ := List.append_of_mem hv
  cases (locate_eq_ok split).symm.trans located
  exact ⟨pre, post, split, rfl⟩

/-- Each position below the sum of the sizes lies in a segment. -/
theorem exists_segment {segments : List (String × Nat)} {k : Nat} (inside : k < total segments) :
    ∃ pre v post, segments = pre ++ v :: post ∧ total pre ≤ k ∧ k < total pre + v.2 := by
  induction segments generalizing k with
  | nil => exact absurd inside (Nat.not_lt_zero k)
  | cons v segments ih =>
    by_cases first : k < v.2
    · exact ⟨[], v, segments, rfl, Nat.zero_le k, by rwa [total_nil, Nat.zero_add]⟩
    · rw [total_cons] at inside
      obtain ⟨pre, w, post, rfl, low, high⟩ := ih (k := k - v.2) (by omega)
      refine ⟨v :: pre, w, post, rfl, ?_, ?_⟩ <;> rw [total_cons] <;> omega

/-- Segments that share a position are one. -/
theorem segment_unique {pre pre' post post' : List (String × Nat)} {v v' : String × Nat} {k : Nat}
    (split : pre ++ v :: post = pre' ++ v' :: post') (low : total pre ≤ k)
    (high : k < total pre + v.2) (low' : total pre' ≤ k) (high' : k < total pre' + v'.2) :
    v = v' := by
  rcases List.append_eq_append_iff.1 split with ⟨mid, rfl, rest⟩ | ⟨mid, rfl, rest⟩
  · cases mid with
    | nil => exact (List.cons.inj rest).1
    | cons u mid =>
      cases rest
      rw [total_append, total_cons] at low'
      omega
  · cases mid with
    | nil => exact (List.cons.inj rest).1.symm
    | cons u mid =>
      cases rest
      rw [total_append, total_cons] at low
      omega

theorem offset_eq_ok {l : VariableLayout} {name : String} {start : Nat} :
    l.offset name = .ok start ↔ ∃ length, l.locate name = .ok (start, length) := by
  rw [offset, bind_eq_ok, Prod.exists]
  simp only [pure_eq_ok, exists_and_right, exists_eq_right]

theorem variableSize_eq_ok {l : VariableLayout} {name : String} {length : Nat} :
    l.variableSize name = .ok length ↔ ∃ start, l.locate name = .ok (start, length) := by
  rw [variableSize, bind_eq_ok, Prod.exists]
  simp only [pure_eq_ok, exists_eq_right]

/-! ### Taking a vector apart -/

section Select

variable {α : Type} [Zero α] [One α]

theorem select_eq_ok {l : VariableLayout} {pre post : List (String × Nat)} {v : String × Nat}
    (split : l.segments = pre ++ v :: post) :
    l.select v.1 = .ok (.linear (RowMatrix.ofFn v.2 l.size fun i j =>
      if total pre + i = j then (1 : α) else 0)) := by
  have flipped : (fun i j => if j = total pre + i then (1 : α) else 0) =
      fun i j => if total pre + i = j then 1 else 0 :=
    funext fun i => funext fun j => if_congr eq_comm rfl rfl
  rw [select, locate_eq_ok split, ok_bind]
  simp only [flipped]
  rfl

variable [Add α] [Mul α] {β : Type} {number : α → β} {finite : α → Prop}

omit [One α] in
/-- The value of a map without offsets is a product, to which zeros are added. -/
theorem value_linear {m : RowMatrix α} {x : List α} (width : m.width = x.length) :
    (AffineMap.linear m).value (.vector x) =
      .ok (.vector (List.zipWith (· + ·) (m.mulVec x) (List.replicate m.height 0))) := by
  have lengths : (m.mulVec x).length = (List.replicate m.height (0 : α)).length := by
    rw [RowMatrix.length_mulVec, List.length_replicate]
  rw [AffineMap.value, AffineMap.linear, Tensor.product_vector, if_pos width, ok_bind,
    Tensor.combine_vector _ lengths]

theorem zipWith_zeros (picks : RowMatrix.Selects number finite) (u : List α) :
    (List.zipWith (· + ·) u (List.replicate u.length 0)).map number = u.map number := by
  refine List.ext_getElem (by simp) fun i _ _ => ?_
  rw [List.getElem_map, List.getElem_zipWith, List.getElem_replicate, List.getElem_map]
  exact picks.add_zero 0 _ rfl

/-- The value of a selected variable is its segment. -/
theorem value_select (picks : RowMatrix.Selects number finite) {l : VariableLayout}
    {pre post : List (String × Nat)} {v : String × Nat} (split : l.segments = pre ++ v :: post)
    {x : List α} (size : x.length = l.size) (entries : ∀ a ∈ x, finite a) :
    ∃ e t, l.select v.1 = .ok e ∧ e.value (.vector x) = .ok (.vector t) ∧
      t.map number = ((x.drop (total pre)).take v.2).map number := by
  have inside : total pre + v.2 ≤ x.length := by
    rw [size, size_eq_total, split, total_append, total_cons]
    omega
  have units := picks.mulVec_units entries v.2 (total pre + ·)
  rw [RowMatrix.map_range_getD number 0 inside, size] at units
  refine ⟨_, _, select_eq_ok split, value_linear size.symm, ?_⟩
  have zeros := zipWith_zeros picks
    ((RowMatrix.ofFn v.2 l.size fun i j => if total pre + i = j then 1 else 0).mulVec x)
  rw [RowMatrix.length_mulVec] at zeros
  exact zeros.trans units

theorem extract_eq {l : VariableLayout} {name : String} {x : ArrayData α} {v : List α}
    {e : AffineMap α} (read : x.read = .ok (.vector v)) (size : v.length = l.size)
    (selected : l.select name = .ok e) : l.extract name x = e.value (.vector v) := by
  have shape : ¬(Tensor.vector v).shape ≠ [l.size] := by
    rw [Tensor.shape, size]
    exact not_not.2 rfl
  rw [extract, read, ok_bind, if_neg shape, selected]
  rfl

/-- The segments of the variables from some position on, behind each other, are
the vector from there on. -/
theorem mapM_extract (picks : RowMatrix.Selects number finite) {l : VariableLayout}
    {x : ArrayData α} {v : List α} (read : x.read = .ok (.vector v)) (size : v.length = l.size)
    (entries : ∀ a ∈ v, finite a) {pre post : List (String × Nat)}
    (split : l.segments = pre ++ post) :
    ∃ ts : List (List α), (post.map Prod.fst).mapM (l.extract · x) = .ok (ts.map .vector) ∧
      ts.flatten.map number = (v.drop (total pre)).map number := by
  induction post generalizing pre with
  | nil =>
    have all : v.length ≤ total pre := by
      rw [size, size_eq_total, split, List.append_nil]
    exact ⟨[], rfl, by rw [List.drop_of_length_le all]; rfl⟩
  | cons w post ih =>
    obtain ⟨e, t, selected, value, segment⟩ := value_select picks split size entries
    have behind : l.segments = (pre ++ [w]) ++ post := by
      rw [split, List.append_assoc]
      rfl
    obtain ⟨ts, rest, numbers⟩ := ih behind
    refine ⟨t :: ts, ?_, ?_⟩
    · rw [List.map_cons, List.mapM_cons, extract_eq read size selected, value, ok_bind, rest]
      rfl
    · rw [total_append, total_cons, total_nil, Nat.add_zero, ← List.drop_drop] at numbers
      rw [List.flatten_cons, List.map_append, segment, numbers, ← List.map_append,
        List.take_append_drop]

end Select

/-! ### Piling the rows of the variables -/

section Pile

variable {α : Type} [Zero α] [One α]

omit [One α] in
theorem eq_of_zero? {outputs inputs : Int} {z : AffineMap α}
    (h : AffineMap.zero? outputs inputs = .ok z) : z = .zero outputs.toNat inputs.toNat := by
  unfold AffineMap.zero? at h
  obtain ⟨-, h⟩ := throw_then.1 h
  obtain ⟨-, h⟩ := then_eq_ok.1 h
  obtain ⟨-, h⟩ := then_eq_ok.1 h
  cases h
  rfl

/-- The first rows of an identity of a given size, without offsets. -/
structure Units (count size : Nat) (e : AffineMap α) : Prop where
  width : e.matrix.width = size
  rows : e.matrix.rows = (List.range count).map fun i => (List.range size).map fun j =>
    if i = j then 1 else 0
  offset : e.offset = List.replicate count 0

theorem units_zero (size : Nat) : Units 0 size (AffineMap.zero 0 size : AffineMap α) :=
  ⟨rfl, rfl, rfl⟩

theorem Units.pile {count size : Nat} {e : AffineMap α} (units : Units count size e)
    (length : Nat) :
    ∃ f, e.pile (.linear (.ofFn length size fun i j => if count + i = j then 1 else 0)) = .ok f ∧
      Units (count + length) size f := by
  have width : e.matrix.width = (AffineMap.linear (.ofFn length size fun i j =>
    if count + i = j then (1 : α) else 0)).matrix.width := units.width
  refine ⟨_, dif_pos width, units.width, ?_, ?_⟩
  · rw [RowMatrix.rows_append, units.rows, List.range_add, List.map_append, List.map_map,
      AffineMap.linear, RowMatrix.rows_ofFn]
    rfl
  · exact (congrArg (· ++ List.replicate length (0 : α)) units.offset).trans
      (List.replicate_append_replicate ..)

theorem foldlM_pile {l : VariableLayout} {pre post : List (String × Nat)}
    (split : l.segments = pre ++ post) {e : AffineMap α} (units : Units (total pre) l.size e) :
    ∃ f, (post.map Prod.fst).foldlM (fun e name => do e.pile (← l.select name)) e = .ok f ∧
      Units l.size l.size f := by
  induction post generalizing pre e with
  | nil =>
    rw [List.append_nil] at split
    refine ⟨e, rfl, ?_⟩
    rw [← split, ← size_eq_total] at units
    exact units
  | cons v post ih =>
    obtain ⟨f, piled, more⟩ := units.pile v.2
    have next : Units (total (pre ++ [v])) l.size f := by
      rw [total_append, total_cons, total_nil, Nat.add_zero]
      exact more
    have behind : l.segments = (pre ++ [v]) ++ post := by
      rw [split, List.append_assoc]
      rfl
    obtain ⟨g, rest, all⟩ := ih behind next
    refine ⟨g, ?_, all⟩
    rw [List.map_cons, List.foldlM_cons, select_eq_ok split, ok_bind, piled, ok_bind, rest]

theorem Units.matrix_eq {size : Nat} {e : AffineMap α} (units : Units size size e) :
    e.matrix = .identity size := by
  refine RowMatrix.ext units.width ?_
  rw [units.rows, RowMatrix.rows_identity]

end Pile

/-! ### Partitions -/

/-- Where a layout has the segment of a variable. -/
def Holds (l : VariableLayout) (name : String) (start length : Nat) : Prop :=
  l.offset name = .ok start ∧ l.variableSize name = .ok length

theorem holds_iff {l : VariableLayout} {name : String} {start length : Nat} :
    l.Holds name start length ↔
      ∃ pre post, l.segments = pre ++ (name, length) :: post ∧ start = total pre := by
  constructor
  · rintro ⟨begins, long⟩
    obtain ⟨_, located⟩ := offset_eq_ok.1 begins
    obtain ⟨_, again⟩ := variableSize_eq_ok.1 long
    cases located.symm.trans again
    exact exists_split located
  · rintro ⟨pre, post, split, rfl⟩
    have located := locate_eq_ok split
    exact ⟨offset_eq_ok.2 ⟨_, located⟩, variableSize_eq_ok.2 ⟨_, located⟩⟩

/-- The segments of a layout are those of names with sizes, one behind the other,
and every position lies in exactly one of them. -/
structure Partitions (l : VariableLayout) (pairs : List (String × Int)) : Prop where
  names : l.names = pairs.map Prod.fst
  size : (l.size : Int) = (pairs.map Prod.snd).sum
  consecutive : ∀ pre p post, pairs = pre ++ p :: post → ∃ start length : Nat,
    l.Holds p.1 start length ∧ (start : Int) = (pre.map Prod.snd).sum ∧ (length : Int) = p.2
  within : ∀ name start length, l.Holds name start length → start + length ≤ l.size
  covered : ∀ k < l.size,
    ∃! name, ∃ start length, l.Holds name start length ∧ start ≤ k ∧ k < start + length

theorem total_toNat {pairs : List (String × Int)} (sizes : ∀ p ∈ pairs, 0 ≤ p.2) :
    (total (pairs.map fun p => (p.1, p.2.toNat)) : Int) = (pairs.map Prod.snd).sum := by
  induction pairs with
  | nil => rfl
  | cons p pairs ih =>
    rw [List.forall_mem_cons] at sizes
    rw [List.map_cons, total_cons, List.map_cons, List.sum_cons, Nat.cast_add, ih sizes.2,
      Int.toNat_of_nonneg sizes.1]

theorem exists_unique_holder {l : VariableLayout} {k : Nat} (inside : k < l.size) :
    ∃! name, ∃ start length, l.Holds name start length ∧ start ≤ k ∧ k < start + length := by
  rw [size_eq_total] at inside
  obtain ⟨pre, v, post, split, low, high⟩ := exists_segment inside
  refine ⟨v.1, ⟨total pre, v.2, holds_iff.2 ⟨pre, post, split, rfl⟩, low, high⟩, ?_⟩
  rintro name ⟨start, length, holds, low', high'⟩
  obtain ⟨pre', post', split', rfl⟩ := holds_iff.1 holds
  exact congrArg Prod.fst (segment_unique (split'.symm.trans split) low' high' low high)

theorem partitions_of_ofPairs {pairs : List (String × Int)} {l : VariableLayout}
    (made : ofPairs pairs = .ok l) : l.Partitions pairs := by
  obtain ⟨-, sizes, segments⟩ := ofPairs_eq_ok.1 made
  refine ⟨?_, ?_, ?_, ?_, fun k inside => exists_unique_holder inside⟩
  · rw [VariableLayout.names, segments, List.map_map]
    rfl
  · rw [size_eq_total, segments, total_toNat sizes]
  · rintro pre p post rfl
    rw [List.forall_mem_append, List.forall_mem_cons] at sizes
    rw [List.map_append, List.map_cons] at segments
    refine ⟨_, _, holds_iff.2 ⟨_, _, segments, rfl⟩, total_toNat sizes.1, ?_⟩
    exact Int.toNat_of_nonneg sizes.2.1
  · intro name start length holds
    obtain ⟨pre, post, split, rfl⟩ := holds_iff.1 holds
    rw [size_eq_total, split, total_append, total_cons]
    omega

/-- Names with sizes make a layout just when no name occurs twice and no size is
negative; otherwise the first pair that breaks this decides the error, and at a
pair that breaks both the name does. The layout partitions the decision vector.
On a vector of finite doubles, a variable has the numbers of its segment, whether
it is extracted or its selection is evaluated; all variables together have the
numbers of the vector; and their selections, piled below no rows, are the identity
without offsets. -/
theorem ofPairs_partitions (pairs : List (String × Int)) :
    ((∃ l, ofPairs pairs = .ok l) ↔
      (pairs.map Prod.fst).Nodup ∧ ∀ p ∈ pairs, 0 ≤ p.2) ∧
    (∀ pre p post, pairs = pre ++ p :: post → (pre.map Prod.fst).Nodup → (∀ q ∈ pre, 0 ≤ q.2) →
      (p.1 ∈ pre.map Prod.fst → ofPairs pairs = .error (.duplicateVariable p.1)) ∧
      (p.1 ∉ pre.map Prod.fst → p.2 < 0 →
        ofPairs pairs = .error (.negativeVariable p.1 p.2))) ∧
    ∀ l, ofPairs pairs = .ok l → l.Partitions pairs ∧
      (∀ (x : ArrayData Float) v, x.read = .ok (.vector v) → v.length = l.size →
        (∀ a ∈ v, Double.IsFinite a) →
        (∀ name start length, l.Holds name start length → ∃ e t, l.select name = .ok e ∧
          e.value (.vector v) = .ok (.vector t) ∧ l.extract name x = .ok (.vector t) ∧
          t.map Double.place = ((v.drop start).take length).map Double.place) ∧
        ∃ ts : List (List Float), l.names.mapM (l.extract · x) = .ok (ts.map .vector) ∧
          ts.flatten.map Double.place = v.map Double.place) ∧
      ∀ z : AffineMap Float, AffineMap.zero? 0 l.size = .ok z → ∃ e,
        l.names.foldlM (fun e name => do e.pile (← l.select name)) z = .ok e ∧
          e.matrix = .identity l.size ∧ e.offset = List.replicate l.size 0 := by
  refine ⟨⟨?_, ?_⟩, ?_, ?_⟩
  · rintro ⟨l, made⟩
    obtain ⟨distinct, sizes, -⟩ := ofPairs_eq_ok.1 made
    exact ⟨distinct, sizes⟩
  · rintro ⟨distinct, sizes⟩
    exact ⟨⟨pairs.map fun p => (p.1, p.2.toNat), by rw [List.map_map]; exact distinct⟩,
      ofPairs_eq_ok.2 ⟨distinct, sizes, rfl⟩⟩
  · rintro pre p post rfl distinct sizes
    refine ⟨fun taken => ?_, fun fresh negative => ?_⟩
    · exact ofPairs_refused distinct sizes fun l names => add_duplicate (names ▸ taken)
    · exact ofPairs_refused distinct sizes fun l names => add_negative (names ▸ fresh) negative
  · intro l made
    refine ⟨partitions_of_ofPairs made, ?_, ?_⟩
    · intro x v read size entries
      refine ⟨fun name start length holds => ?_, ?_⟩
      · obtain ⟨pre, post, split, rfl⟩ := holds_iff.1 holds
        obtain ⟨e, t, selected, value, segment⟩ :=
          value_select Double.selects_place split size entries
        exact ⟨e, t, selected, value, (extract_eq read size selected).trans value, segment⟩
      · exact mapM_extract Double.selects_place read size entries (List.nil_append _).symm
    · intro z room
      cases eq_of_zero? room
      have all : l.segments = [] ++ l.segments := (List.nil_append _).symm
      obtain ⟨e, piled, units⟩ := foldlM_pile all (units_zero (α := Float) l.size)
      exact ⟨e, piled, units.matrix_eq, units.offset⟩

/-- Three variables, of which the second one has no entry, and a vector of them. -/
def threeVariables : List (String × Int) := [("left", 2), ("none", 0), ("right", 1)]

/-- The third variable begins where the second one does, and holds the last entry. -/
theorem threeVariables_partition : ∃ l, ofPairs threeVariables = .ok l ∧
    l.Partitions threeVariables ∧ l.Holds "none" 2 0 ∧ l.Holds "right" 2 1 ∧
    (∃ t, l.extract "right" (.shaped (.vector [4, -5, 6])) = .ok (.vector t) ∧
      t.map Double.place = [Double.place 6]) ∧
    ofPairs (threeVariables ++ [("left", -1)]) = .error (.duplicateVariable "left") := by
  obtain ⟨made, -, placed⟩ := ofPairs_partitions threeVariables
  obtain ⟨l, run⟩ := made.2 (by decide)
  obtain ⟨partition, numbers, -⟩ := placed l run
  obtain ⟨-, refused, -⟩ := ofPairs_partitions (threeVariables ++ [("left", -1)])
  have entries : ∀ a ∈ [(4 : Float), -5, 6], Double.IsFinite a := by
    simp only [List.forall_mem_cons]
    exact ⟨.of_value rfl, .of_value rfl, .of_value rfl, List.forall_mem_nil _⟩
  obtain ⟨start, length, none, begins, long⟩ :=
    partition.consecutive [("left", 2)] ("none", 0) [("right", 1)] rfl
  obtain ⟨start', length', right, begins', long'⟩ :=
    partition.consecutive [("left", 2), ("none", 0)] ("right", 1) [] rfl
  obtain rfl : start = 2 := Int.ofNat_inj.1 begins
  obtain rfl : length = 0 := Int.ofNat_inj.1 long
  obtain rfl : start' = 2 := Int.ofNat_inj.1 begins'
  obtain rfl : length' = 1 := Int.ofNat_inj.1 long'
  have size : [(4 : Float), -5, 6].length = l.size := Int.ofNat_inj.1 partition.size.symm
  obtain ⟨e, t, -, -, extracted, segment⟩ :=
    (numbers (.shaped (.vector [4, -5, 6])) _ rfl size entries).1 "right" 2 1 right
  exact ⟨l, run, partition, none, right, ⟨t, extracted, segment⟩,
    (refused threeVariables ("left", -1) [] rfl (by decide) (by decide)).1 (by decide)⟩

end VariableLayout

end ControlHierarchy
