import Rio.Kitty.Placeholders
import Rio.Lib.Fitted

/-! Where a run of placeholders is drawn, and what its overlay shows. The renderer's numbers are
exact here. -/

set_option linter.dupNamespace false

namespace Rio.Kitty
open Rio.Fitted

/-- What to draw for a run; `sourceRect` is the part of the image, in units of its size. -/
structure RunGeometry where
  x : ℚ
  y : ℚ
  width : ℚ
  height : ℚ
  sourceRect : ℚ × ℚ × ℚ × ℚ
  deriving DecidableEq, Repr

/-- The size of a cell, and the top left of the terminal grid. -/
structure CellMetrics where
  cellWidth : ℚ
  cellHeight : ℚ
  originX : ℚ
  originY : ℚ

def computeRunGeometry (run : PlaceholderRun) (placementCols placementRows imageWidthPx
    imageHeightPx : ℚ) (m : CellMetrics) (screenLine startScreenCol : ℕ) : Option RunGeometry :=
  if imageWidthPx ≤ 0 ∨ imageHeightPx ≤ 0 then none
  else
    -- placement box in pixels
    let pColsPx := max placementCols 1 * m.cellWidth
    let pRowsPx := max placementRows 1 * m.cellHeight
    -- aspect-fit and centering
    let scale := min (pColsPx / imageWidthPx) (pRowsPx / imageHeightPx)
    let fitW := imageWidthPx * scale
    let fitH := imageHeightPx * scale
    let padX := (pColsPx - fitW) / 2
    let padY := (pRowsPx - fitH) / 2
    -- the run's rect inside the placement box
    let runBoxX := run.col * m.cellWidth
    let runBoxY := run.row * m.cellHeight
    let runBoxW := run.width * m.cellWidth
    let runBoxH := m.cellHeight
    -- its intersection with the fitted image
    let visX0 := max runBoxX padX
    let visY0 := max runBoxY padY
    let visX1 := min (runBoxX + runBoxW) (padX + fitW)
    let visY1 := min (runBoxY + runBoxH) (padY + fitH)
    if visX1 ≤ visX0 ∨ visY1 ≤ visY0 then none
    else some
      { x := m.originX + startScreenCol * m.cellWidth + (visX0 - runBoxX)
        y := m.originY + screenLine * m.cellHeight + (visY0 - runBoxY)
        width := visX1 - visX0
        height := visY1 - visY0
        sourceRect := ((visX0 - padX) / fitW, (visY0 - padY) / fitH, (visX1 - padX) / fitW,
          (visY1 - padY) / fitH) }

/-- An image that is drawn over or under the text. -/
structure GraphicOverlay where
  imageId : ℕ
  x : ℚ
  y : ℚ
  width : ℚ
  height : ℚ
  zIndex : ℤ
  sourceRect : ℚ × ℚ × ℚ × ℚ
  deriving DecidableEq, Repr

/-- The sizes that the renderer looks up: columns and rows of virtual placements, by image and
placement, and pixels of images. -/
structure VirtualImages where
  kittyVirtualPlacements : ℕ × ℕ → Option (Size ℚ)
  kittyImages : ℕ → Option (Size ℚ)

/-- Virtual placements are below the text. -/
def virtualZIndex : ℤ := -1

namespace VirtualImages

/-- The placement with the id, or the one without an id. -/
def placement (images : VirtualImages) (imageId placementId : ℕ) : Option (Size ℚ) :=
  (images.kittyVirtualPlacements (imageId, placementId)).or
    (images.kittyVirtualPlacements (imageId, 0))

/-- The overlay of a completed run, if its placement and its image are known and it is not in the
padding. -/
def flushRun (images : VirtualImages) (m : CellMetrics) (run : PlaceholderRun)
    (screenLine startScreenCol : ℕ) : Option GraphicOverlay := do
  let vp ← images.placement run.imageId run.placementId
  let img ← images.kittyImages run.imageId
  let geom ← computeRunGeometry run vp.width vp.height img.width img.height m screenLine
    startScreenCol
  return ⟨run.imageId, geom.x, geom.y, geom.width, geom.height, virtualZIndex, geom.sourceRect⟩

end VirtualImages

/-- All images have pixels. -/
def VirtualImages.Positive (images : VirtualImages) : Prop :=
  ∀ id img, images.kittyImages id = some img → 0 < img.width ∧ 0 < img.height

/-! ### What is shown -/

/-- A point of an image, in units of its size, and the layer it is shown on. -/
structure ShownPoint where
  imageId : ℕ
  zIndex : ℤ
  source : ℚ × ℚ
  deriving DecidableEq, Repr

namespace GraphicOverlay

def patch (o : GraphicOverlay) : Patch ℚ where
  place := ⟨o.x, o.y, o.width, o.height⟩
  start := (o.sourceRect.1, o.sourceRect.2.1)
  stop := (o.sourceRect.2.2.1, o.sourceRect.2.2.2)

/-- What an overlay shows at a point of the screen. -/
def pointAt (o : GraphicOverlay) (p : ℚ × ℚ) : Option ShownPoint :=
  (o.patch.pointAt p).map fun source => ⟨o.imageId, o.zIndex, source⟩

end GraphicOverlay

/-- What overlays show at a point of the screen. -/
def picture (overlays : List GraphicOverlay) (p : ℚ × ℚ) : List ShownPoint :=
  overlays.filterMap fun o => o.pointAt p

/-- The box of a placement; one that names no columns or rows has one. -/
def placementBox (m : CellMetrics) (vp : Size ℚ) : Size ℚ :=
  ⟨max vp.width 1 * m.cellWidth, max vp.height 1 * m.cellHeight⟩

/-- What a placement shows at a point of its box: the fitted image, and nothing around it. -/
def VirtualImages.boxPoint (images : VirtualImages) (m : CellMetrics) (imageId placementId : ℕ)
    (p : ℚ × ℚ) : Option ShownPoint := do
  let vp ← images.placement imageId placementId
  let img ← images.kittyImages imageId
  let source ← (fit (placementBox m vp) img).pointAt p
  return ⟨imageId, virtualZIndex, source⟩

/-! ### Runs -/

namespace PlaceholderRun

/-- The cells of a run in the placement box. -/
def box (run : PlaceholderRun) (m : CellMetrics) : Rect ℚ :=
  ⟨run.col * m.cellWidth, run.row * m.cellHeight, run.width * m.cellWidth, m.cellHeight⟩

/-- How far the placement box of a run is moved to be on the screen. -/
def shift (run : PlaceholderRun) (m : CellMetrics) (screenLine startScreenCol : ℕ) : ℚ × ℚ :=
  (m.originX + startScreenCol * m.cellWidth - run.col * m.cellWidth,
    m.originY + screenLine * m.cellHeight - run.row * m.cellHeight)

end PlaceholderRun

variable {images : VirtualImages} {m : CellMetrics} {run : PlaceholderRun} {line start : ℕ}

/-- The geometry of a run is the part of the fitted image that is seen through its cells. -/
theorem computeRunGeometry_eq {vp img : Size ℚ} (himg : 0 < img.width ∧ 0 < img.height) :
    computeRunGeometry run vp.width vp.height img.width img.height m line start =
      (cut (run.box m) (fit (placementBox m vp) img)).map fun patch =>
        let patch := patch.move (run.shift m line start)
        ⟨patch.place.x, patch.place.y, patch.place.width, patch.place.height,
          (patch.start.1, patch.start.2, patch.stop.1, patch.stop.2)⟩ := by
  have hsizes : ¬ (img.width ≤ 0 ∨ img.height ≤ 0) :=
    not_or.mpr ⟨himg.1.not_ge, himg.2.not_ge⟩
  unfold computeRunGeometry cut
  rw [if_neg hsizes]
  dsimp only [fit, placementBox, PlaceholderRun.box]
  split_ifs
  · rfl
  · rw [Option.map_some, Option.some_inj, RunGeometry.mk.injEq]
    dsimp only [Patch.move, PlaceholderRun.shift]
    refine ⟨?_, ?_, rfl, rfl, rfl⟩
    · ring
    · ring

/-- What the overlay of a run shows: through its cells, the box of the placement. -/
theorem flushRun_pointAt (himages : images.Positive) (m : CellMetrics) (run : PlaceholderRun)
    (line start : ℕ) (p : ℚ × ℚ) :
    ((images.flushRun m run line start).bind fun o => o.pointAt p) =
      if (run.box m).Contains (p - run.shift m line start) then
        images.boxPoint m run.imageId run.placementId (p - run.shift m line start) else none := by
  unfold VirtualImages.flushRun VirtualImages.boxPoint
  cases hvp : images.placement run.imageId run.placementId with
  | none => simp
  | some vp =>
    cases himg : images.kittyImages run.imageId with
    | none => simp
    | some img =>
      simp only [Option.bind_eq_bind, Option.bind_some]
      rw [computeRunGeometry_eq (himages _ _ himg)]
      have hcut := pointAt_cut (run.box m) (fit (placementBox m vp) img)
        (p - run.shift m line start)
      cases hseen : cut (run.box m) (fit (placementBox m vp) img) with
      | none =>
        rw [hseen, Option.bind_none] at hcut
        split_ifs at hcut ⊢ with hin
        · rw [← hcut]
          rfl
        · rfl
      | some patch =>
        rw [hseen, Option.bind_some, ← pointAt_move] at hcut
        show ((patch.move (run.shift m line start)).pointAt p).map _ = _
        rw [hcut]
        split_ifs
        · cases (fit (placementBox m vp) img).pointAt (p - run.shift m line start) with
          | none => rfl
          | some source => rfl
        · rfl

/-- What a run shows at a point of the screen. -/
def VirtualImages.runPicture (images : VirtualImages) (m : CellMetrics) (run : PlaceholderRun)
    (line start : ℕ) (p : ℚ × ℚ) : List ShownPoint :=
  picture (images.flushRun m run line start).toList p

theorem runPicture_eq (himages : images.Positive) (p : ℚ × ℚ) :
    images.runPicture m run line start p =
      if (run.box m).Contains (p - run.shift m line start) then
        (images.boxPoint m run.imageId run.placementId (p - run.shift m line start)).toList
      else [] := by
  have hpoint := flushRun_pointAt himages m run line start p
  unfold VirtualImages.runPicture picture
  cases hflush : images.flushRun m run line start with
  | none =>
    rw [hflush] at hpoint
    split_ifs at hpoint ⊢
    · rw [← hpoint]
      rfl
    · rfl
  | some o =>
    rw [hflush, Option.bind_some] at hpoint
    rw [Option.toList_some, List.filterMap_cons, hpoint]
    split_ifs
    · cases images.boxPoint m run.imageId run.placementId (p - run.shift m line start) with
      | none => rfl
      | some shown => rfl
    · rfl

/-- A run that is one cell longer shows what the run shows, and then the cell. -/
theorem runPicture_append (hm : 0 < m.cellWidth) (himages : images.Positive) (p : ℚ × ℚ) :
    images.runPicture m { run with width := run.width + 1 } line start p =
      images.runPicture m run line start p ++
        images.runPicture m { run with col := run.col + run.width, width := 1 } line
          (start + run.width) p := by
  have hshift : PlaceholderRun.shift { run with col := run.col + run.width, width := 1 } m line
      (start + run.width) = run.shift m line start := by
    unfold PlaceholderRun.shift
    push_cast
    rw [Prod.mk.injEq]
    refine ⟨?_, rfl⟩
    ring
  rw [runPicture_eq himages, runPicture_eq himages, runPicture_eq himages, hshift]
  have hlong : PlaceholderRun.box { run with width := run.width + 1 } m =
      ⟨run.col * m.cellWidth, run.row * m.cellHeight, run.width * m.cellWidth + m.cellWidth,
        m.cellHeight⟩ := by
    unfold PlaceholderRun.box
    push_cast
    rw [add_one_mul]
  have hcell : PlaceholderRun.box { run with col := run.col + run.width, width := 1 } m =
      ⟨run.col * m.cellWidth + run.width * m.cellWidth, run.row * m.cellHeight, m.cellWidth,
        m.cellHeight⟩ := by
    unfold PlaceholderRun.box
    push_cast
    rw [add_mul, one_mul]
  have hwidth : 0 ≤ run.width * m.cellWidth := mul_nonneg (Nat.cast_nonneg _) hm.le
  rw [hlong, hcell]
  show (if Rect.Contains _ (p - run.shift m line start) then _ else _) = _
  rw [if_congr (Rect.contains_beside hwidth hm.le _) rfl rfl]
  by_cases hrun : (run.box m).Contains (p - run.shift m line start)
  · rw [if_pos hrun, if_pos (.inl hrun), if_neg (Rect.not_contains_beside hrun), List.append_nil]
    rfl
  · rw [if_neg hrun, List.nil_append]
    exact if_congr (or_iff_right hrun) rfl rfl

end Rio.Kitty
