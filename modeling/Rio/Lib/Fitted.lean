import Mathlib.Algebra.Order.Field.Basic
import Mathlib.Tactic

/-! Images fitted into boxes, and what is seen of them through a window. Points of an image are in
units of its width and height. -/
namespace Rio.Fitted

variable {K : Type*} [Field K] [LinearOrder K]

@[ext] structure Size (K : Type*) where
  width : K
  height : K

/-- A rectangle with its left and upper edge, without the right and lower one. -/
@[ext] structure Rect (K : Type*) where
  x : K
  y : K
  width : K
  height : K

namespace Rect

def Contains (r : Rect K) (p : K × K) : Prop :=
  (r.x ≤ p.1 ∧ p.1 < r.x + r.width) ∧ r.y ≤ p.2 ∧ p.2 < r.y + r.height

instance (r : Rect K) (p : K × K) : Decidable (r.Contains p) :=
  inferInstanceAs (Decidable ((_ ∧ _) ∧ _ ∧ _))

/-- The point of an image that fills the rectangle. -/
def pointAt (r : Rect K) (p : K × K) : Option (K × K) :=
  if r.Contains p then some ((p.1 - r.x) / r.width, (p.2 - r.y) / r.height) else none

/-- Two rectangles side by side make up one. -/
theorem contains_beside [IsStrictOrderedRing K] {x y width width' height : K} (hwidth : 0 ≤ width)
    (hwidth' : 0 ≤ width') (p : K × K) :
    Contains ⟨x, y, width + width', height⟩ p ↔
      Contains ⟨x, y, width, height⟩ p ∨ Contains ⟨x + width, y, width', height⟩ p := by
  unfold Contains
  dsimp only
  rw [← or_and_right, ← add_assoc]
  apply and_congr_left'
  constructor
  · intro h
    obtain hlt | hle := lt_or_ge p.1 (x + width)
    · exact .inl ⟨h.1, hlt⟩
    · exact .inr ⟨hle, h.2⟩
  · intro h
    obtain h | h := h
    · exact ⟨h.1, h.2.trans_le (le_add_of_nonneg_right hwidth')⟩
    · exact ⟨(le_add_of_nonneg_right hwidth).trans h.1, h.2⟩

theorem not_contains_beside {x y width width' height : K} {p : K × K}
    (h : Contains ⟨x, y, width, height⟩ p) : ¬ Contains ⟨x + width, y, width', height⟩ p :=
  fun h' => absurd h'.1.1 h.1.2.not_ge

end Rect

/-! ### Fitting -/

/-- The image keeps its aspect in the box, is as large as the box lets it be, and in its middle. -/
structure FitsInto (box image : Size K) (r : Rect K) : Prop where
  aspect : r.width * image.height = r.height * image.width
  width_le : r.width ≤ box.width
  height_le : r.height ≤ box.height
  touches : r.width = box.width ∨ r.height = box.height
  centred_x : r.x + r.width + r.x = box.width
  centred_y : r.y + r.height + r.y = box.height

/-- Scale an image to fit, and centre it. -/
def fit (box image : Size K) : Rect K :=
  let scale := min (box.width / image.width) (box.height / image.height)
  let width := image.width * scale
  let height := image.height * scale
  ⟨(box.width - width) / 2, (box.height - height) / 2, width, height⟩

section Fit

variable [IsStrictOrderedRing K] {box image : Size K} {r r' : Rect K}

theorem fit_width_pos (hbox : 0 < box.width ∧ 0 < box.height)
    (himage : 0 < image.width ∧ 0 < image.height) : 0 < (fit box image).width :=
  mul_pos himage.1 (lt_min (div_pos hbox.1 himage.1) (div_pos hbox.2 himage.2))

theorem fit_height_pos (hbox : 0 < box.width ∧ 0 < box.height)
    (himage : 0 < image.width ∧ 0 < image.height) : 0 < (fit box image).height :=
  mul_pos himage.2 (lt_min (div_pos hbox.1 himage.1) (div_pos hbox.2 himage.2))

theorem fit_fitsInto (himage : 0 < image.width ∧ 0 < image.height) :
    FitsInto box image (fit box image) where
  aspect := by
    show image.width * _ * image.height = image.height * _ * image.width
    ring
  width_le := by
    show image.width * _ ≤ box.width
    calc image.width * min (box.width / image.width) (box.height / image.height)
        ≤ image.width * (box.width / image.width) :=
          mul_le_mul_of_nonneg_left (min_le_left _ _) himage.1.le
      _ = box.width := mul_div_cancel₀ _ himage.1.ne'
  height_le := by
    show image.height * _ ≤ box.height
    calc image.height * min (box.width / image.width) (box.height / image.height)
        ≤ image.height * (box.height / image.height) :=
          mul_le_mul_of_nonneg_left (min_le_right _ _) himage.2.le
      _ = box.height := mul_div_cancel₀ _ himage.2.ne'
  touches := by
    show image.width * min _ _ = _ ∨ image.height * min _ _ = _
    obtain hmin | hmin := min_choice (box.width / image.width) (box.height / image.height)
    · rw [hmin]
      exact .inl (mul_div_cancel₀ _ himage.1.ne')
    · rw [hmin]
      exact .inr (mul_div_cancel₀ _ himage.2.ne')
  centred_x := by
    show (box.width - (fit box image).width) / 2 + (fit box image).width +
      (box.width - (fit box image).width) / 2 = box.width
    ring
  centred_y := by
    show (box.height - (fit box image).height) / 2 + (fit box image).height +
      (box.height - (fit box image).height) / 2 = box.height
    ring

theorem FitsInto.width_mono (himage : 0 < image.width ∧ 0 < image.height)
    (h : FitsInto box image r) (h' : FitsInto box image r') : r.width ≤ r'.width := by
  obtain htouches | htouches := h'.touches
  · rw [htouches]
    exact h.width_le
  · have hheight : r.height ≤ r'.height := htouches ▸ h.height_le
    apply le_of_mul_le_mul_right _ himage.2
    calc r.width * image.height = r.height * image.width := h.aspect
      _ ≤ r'.height * image.width := mul_le_mul_of_nonneg_right hheight himage.1.le
      _ = r'.width * image.height := h'.aspect.symm

/-- An image fits into a box in one way. -/
theorem FitsInto.unique (himage : 0 < image.width ∧ 0 < image.height) (h : FitsInto box image r)
    (h' : FitsInto box image r') : r = r' := by
  have hwidth : r.width = r'.width := (h.width_mono himage h').antisymm (h'.width_mono himage h)
  have hheight : r.height = r'.height := by
    apply mul_right_cancel₀ himage.1.ne'
    rw [← h.aspect, ← h'.aspect, hwidth]
  have hx := h.centred_x.trans h'.centred_x.symm
  have hy := h.centred_y.trans h'.centred_y.symm
  rw [hwidth] at hx
  rw [hheight] at hy
  ext
  · linarith
  · linarith
  · exact hwidth
  · exact hheight

end Fit

/-! ### Windows -/

/-- What is drawn in a rectangle: the part of an image from `start` to `stop`. -/
structure Patch (K : Type*) where
  place : Rect K
  start : K × K
  stop : K × K

/-- The point that is reached after a part of the way from one point to another. -/
def along (a b t : K) : K := a + t * (b - a)

/-- The point of the image that is drawn at a point. -/
def Patch.pointAt (patch : Patch K) (p : K × K) : Option (K × K) :=
  if patch.place.Contains p then
    some (along patch.start.1 patch.stop.1 ((p.1 - patch.place.x) / patch.place.width),
      along patch.start.2 patch.stop.2 ((p.2 - patch.place.y) / patch.place.height))
  else none

def Patch.move (patch : Patch K) (d : K × K) : Patch K :=
  { patch with place := { patch.place with x := patch.place.x + d.1, y := patch.place.y + d.2 } }

/-- The part of an image that is seen through a window. -/
def cut (window image : Rect K) : Option (Patch K) :=
  let x0 := max window.x image.x
  let y0 := max window.y image.y
  let x1 := min (window.x + window.width) (image.x + image.width)
  let y1 := min (window.y + window.height) (image.y + image.height)
  if x1 ≤ x0 ∨ y1 ≤ y0 then none
  else some ⟨⟨x0, y0, x1 - x0, y1 - y0⟩,
    ((x0 - image.x) / image.width, (y0 - image.y) / image.height),
    ((x1 - image.x) / image.width, (y1 - image.y) / image.height)⟩

theorem pointAt_move [IsStrictOrderedRing K] (patch : Patch K) (d p : K × K) :
    (patch.move d).pointAt p = patch.pointAt (p - d) := by
  have hplace : (patch.move d).place.Contains p ↔ patch.place.Contains (p - d) := by
    show (patch.place.x + d.1 ≤ p.1 ∧ p.1 < patch.place.x + d.1 + patch.place.width) ∧
        patch.place.y + d.2 ≤ p.2 ∧ p.2 < patch.place.y + d.2 + patch.place.height ↔
      (patch.place.x ≤ p.1 - d.1 ∧ p.1 - d.1 < patch.place.x + patch.place.width) ∧
        patch.place.y ≤ p.2 - d.2 ∧ p.2 - d.2 < patch.place.y + patch.place.height
    rw [le_sub_iff_add_le, le_sub_iff_add_le, sub_lt_iff_lt_add, sub_lt_iff_lt_add,
      add_right_comm, add_right_comm patch.place.y]
  unfold Patch.pointAt
  rw [if_congr hplace _ rfl]
  show some (along _ _ ((p.1 - (patch.place.x + d.1)) / _),
    along _ _ ((p.2 - (patch.place.y + d.2)) / _)) = _
  rw [sub_add_eq_sub_sub_swap, sub_add_eq_sub_sub_swap]
  rfl

theorem along_div {x x0 x1 start width : K} (hlt : x0 < x1) :
    along ((x0 - start) / width) ((x1 - start) / width) ((x - x0) / (x1 - x0)) =
      (x - start) / width := by
  have hne : x1 - x0 ≠ 0 := sub_ne_zero.mpr hlt.ne'
  unfold along
  rw [← sub_div, sub_sub_sub_cancel_right, ← mul_div_assoc, div_mul_cancel₀ _ hne, ← add_div]
  congr 1
  ring

omit [Field K] in
theorem contains_and_iff {a b a' b' x : K} :
    (a ≤ x ∧ x < b) ∧ a' ≤ x ∧ x < b' ↔ max a a' ≤ x ∧ x < min b b' := by
  rw [max_le_iff, lt_min_iff]
  tauto

/-- What the cut shows is in the window and on the image. -/
theorem cut_contains_iff (window image : Rect K) (p : K × K) :
    window.Contains p ∧ image.Contains p ↔
      (max window.x image.x ≤ p.1 ∧
        p.1 < min (window.x + window.width) (image.x + image.width)) ∧
      max window.y image.y ≤ p.2 ∧
        p.2 < min (window.y + window.height) (image.y + image.height) := by
  rw [← contains_and_iff, ← contains_and_iff]
  unfold Rect.Contains
  tauto

/-- Where the window is, the cut shows the whole image, and elsewhere nothing. -/
theorem pointAt_cut (window image : Rect K) (p : K × K) :
    ((cut window image).bind fun patch => patch.pointAt p) =
      if window.Contains p then image.pointAt p else none := by
  have hboth := cut_contains_iff window image p
  have hright : (if window.Contains p then image.pointAt p else none) =
      if window.Contains p ∧ image.Contains p then
        some ((p.1 - image.x) / image.width, (p.2 - image.y) / image.height) else none := by
    unfold Rect.pointAt
    rw [ite_and]
  rw [hright]
  unfold cut
  dsimp only
  generalize max window.x image.x = x0 at *
  generalize max window.y image.y = y0 at *
  generalize min (window.x + window.width) (image.x + image.width) = x1 at *
  generalize min (window.y + window.height) (image.y + image.height) = y1 at *
  by_cases hempty : x1 ≤ x0 ∨ y1 ≤ y0
  · have hnot : ¬ (window.Contains p ∧ image.Contains p) := by
      intro hin
      obtain ⟨⟨hx0, hx1⟩, hy0, hy1⟩ := hboth.mp hin
      obtain hx | hy := hempty
      · exact absurd (hx0.trans_lt hx1) hx.not_gt
      · exact absurd (hy0.trans_lt hy1) hy.not_gt
    rw [if_pos hempty, if_neg hnot]
    rfl
  · obtain ⟨hx, hy⟩ := not_or.mp hempty
    have hplace : Rect.Contains ⟨x0, y0, x1 - x0, y1 - y0⟩ p ↔
        window.Contains p ∧ image.Contains p := by
      rw [hboth]
      unfold Rect.Contains
      rw [add_sub_cancel, add_sub_cancel]
    rw [if_neg hempty, Option.bind_some]
    unfold Patch.pointAt
    dsimp only
    rw [along_div (not_le.mp hx), along_div (not_le.mp hy)]
    simp only [hplace]

end Rio.Fitted
