import Batchwork.Table.Writer

/-!
# Slices

A list is cut into slices of one size, and what remains at its end becomes a shorter slice. Nothing
is lost or moved on the way, and no slice is empty. Main statement: `slices_cut`.
-/

namespace Batchwork.TableWriter

variable {α : Type} {size fuel : Nat} {items first rest slice : List α} {cuts : List (List α)}

/-- Slices of a list. All have the full size but the last, which has elements as well. -/
structure Cut (size : Nat) (items : List α) (cuts : List (List α)) : Prop where
  whole : cuts.flatten = items
  full : ∀ slice ∈ cuts.dropLast, slice.length = size
  last : ∀ slice ∈ cuts.getLast?, 1 ≤ slice.length ∧ slice.length ≤ size

namespace Cut

theorem nil : Cut size ([] : List α) [] := ⟨rfl, nofun, nofun⟩

theorem single (nonempty : 1 ≤ items.length) (short : items.length ≤ size) :
    Cut size items [items] := by
  refine ⟨List.append_nil items, nofun, ?_⟩
  intro slice member
  obtain rfl : items = slice := by simpa using member
  exact ⟨nonempty, short⟩

theorem cons (full : first.length = size) (more : rest ≠ []) (cut : Cut size rest cuts) :
    Cut size (first ++ rest) (first :: cuts) := by
  have behind : cuts ≠ [] := by
    rintro rfl
    exact more cut.whole.symm
  refine ⟨by rw [List.flatten_cons, cut.whole], ?_, ?_⟩
  · rw [List.dropLast_cons_of_ne_nil behind]
    exact List.forall_mem_cons.mpr ⟨full, cut.full⟩
  · rw [List.getLast?_cons_of_ne_nil behind]
    exact cut.last

/-- There is at least one element in each slice, and not more than there may be. -/
theorem within (cut : Cut size items cuts) (positive : 0 < size) (member : slice ∈ cuts) :
    1 ≤ slice.length ∧ slice.length ≤ size := by
  obtain rfl | ⟨front, final, rfl⟩ := cuts.eq_nil_or_concat
  · cases member
  · -- Either it is the last slice, or it stands among the full ones.
    rw [List.concat_eq_append] at cut member
    rcases List.mem_append.mp member with before | final
    · have full := cut.full slice (by simpa using before)
      omega
    · exact cut.last slice (by simpa using (List.mem_singleton.mp final).symm)

/-- The elements of a slice are among those that were cut. -/
theorem subset (cut : Cut size items cuts) (member : slice ∈ cuts) : slice ⊆ items := by
  intro item inside
  rw [← cut.whole]
  exact List.mem_flatten_of_mem member inside

/-- A slice with others behind it is full. -/
theorem of_cons (cut : Cut size items (first :: cuts)) (more : cuts ≠ []) :
    first.length = size ∧ items = first ++ cuts.flatten ∧ Cut size cuts.flatten cuts := by
  obtain ⟨whole, full, last⟩ := cut
  rw [List.dropLast_cons_of_ne_nil more] at full
  rw [List.getLast?_cons_of_ne_nil more] at last
  obtain ⟨same, full⟩ := List.forall_mem_cons.mp full
  exact ⟨same, whole.symm, rfl, full, last⟩

theorem of_singleton (cut : Cut size items [first]) :
    items = first ∧ 1 ≤ first.length ∧ first.length ≤ size :=
  ⟨by simpa using cut.whole.symm, cut.last first rfl⟩

/-- There are elements in the last slices, however many they are. -/
theorem behind_ne_nil {front behind : List (List α)} (cut : Cut size items (front ++ behind))
    (more : behind ≠ []) : behind.flatten ≠ [] := by
  have final : (front ++ behind).getLast? = some (behind.getLast more) := by
    rw [List.getLast?_append, List.getLast?_eq_some_getLast more, Option.some_or]
  intro none
  have empty := List.flatten_eq_nil_iff.mp none _ (List.getLast_mem more)
  have nonempty := (cut.last _ final).1
  rw [empty] at nonempty
  exact absurd nonempty (Nat.not_succ_le_zero 0)

theorem items_ne_nil (cut : Cut size items cuts) (some : cuts ≠ []) : items ≠ [] := by
  have all : Cut size items ([] ++ cuts) := cut
  rw [← cut.whole]
  exact all.behind_ne_nil some

/-- In front of a slice there are full ones only. -/
theorem dvd_front {front behind : List (List α)} (cut : Cut size items (front ++ behind))
    (more : behind ≠ []) : size ∣ front.flatten.length := by
  have full : ∀ count ∈ front.map List.length, count = size := by
    rw [List.forall_mem_map]
    intro slice member
    apply cut.full
    rw [List.dropLast_append_of_ne_nil more]
    exact List.mem_append_left _ member
  rw [List.length_flatten, List.eq_replicate_of_mem full, List.sum_replicate_nat]
  exact Nat.dvd_mul_left size _

/-- There is more than a slice can take if there is more than one. -/
theorem size_lt (cut : Cut size items (first :: cuts)) (more : cuts ≠ []) :
    size < items.length := by
  obtain ⟨full, whole, behind⟩ := cut.of_cons more
  have others := List.length_pos_iff.mpr (behind.items_ne_nil more)
  rw [whole, List.length_append]
  omega

/-- There is one way only to cut a list. -/
theorem unique (cut : Cut size items cuts) {others : List (List α)}
    (other : Cut size items others) : cuts = others := by
  induction cuts generalizing items others with
  | nil =>
    cases others with
    | nil => rfl
    | cons first rest => exact absurd cut.whole.symm (other.items_ne_nil (List.cons_ne_nil _ _))
  | cons first rest ih =>
    cases others with
    | nil => exact absurd other.whole.symm (cut.items_ne_nil (List.cons_ne_nil _ _))
    | cons first' rest' =>
      -- A list of one slice fits into it, and a list of more does not.
      by_cases final : rest = [] <;> by_cases final' : rest' = []
      · subst final final'
        rw [← cut.of_singleton.1, ← other.of_singleton.1]
      · subst final
        obtain ⟨rfl, -, short⟩ := cut.of_singleton
        exact absurd (other.size_lt final') (Nat.not_lt.mpr short)
      · subst final'
        obtain ⟨rfl, -, short⟩ := other.of_singleton
        exact absurd (cut.size_lt final) (Nat.not_lt.mpr short)
      · obtain ⟨full, whole, behind⟩ := cut.of_cons final
        obtain ⟨full', whole', behind'⟩ := other.of_cons final'
        obtain ⟨rfl, same⟩ := List.append_inj (whole.symm.trans whole') (full.trans full'.symm)
        rw [ih behind (same ▸ behind')]

end Cut

/-- Cutting takes off one slice after the other, as long as there is something left. -/
theorem slices_cut (positive : 0 < size) (enough : items.length ≤ fuel) :
    Cut size items (slices size fuel items) := by
  induction fuel generalizing items with
  | zero =>
    obtain rfl := List.eq_nil_of_length_eq_zero (Nat.le_zero.mp enough)
    exact .nil
  | succ fuel ih =>
    cases items with
    | nil => exact .nil
    | cons item rest =>
      have shorter : ((item :: rest).drop size).length ≤ fuel := by
        rw [List.length_drop]
        omega
      have cut := ih shorter
      rw [slices]
      · by_cases short : (item :: rest).length ≤ size
        · -- What remains fits into one slice, behind which nothing is left to cut.
          rw [List.drop_of_length_le short, List.take_of_length_le short]
          cases fuel <;> exact .single (Nat.succ_pos _) short
        · have full : ((item :: rest).take size).length = size := by
            rw [List.length_take]
            omega
          have more : (item :: rest).drop size ≠ [] := by
            rwa [Ne, List.drop_eq_nil_iff]
          have whole := cut.cons full more
          rwa [List.take_append_drop] at whole
      · exact nofun

/-- Slices are cut by the number of elements alone. -/
theorem slices_map {β : Type} (f : α → β) (size fuel : Nat) (items : List α) :
    slices size fuel (items.map f) = (slices size fuel items).map (·.map f) := by
  induction fuel generalizing items with
  | zero => rfl
  | succ fuel ih =>
    cases items with
    | nil => rfl
    | cons item rest =>
      have later := ih ((item :: rest).drop size)
      rw [List.map_drop] at later
      rw [slices, List.map_cons, slices, List.map_cons, ← List.map_cons, later, List.map_take]
      · exact nofun
      · exact nofun

end Batchwork.TableWriter
