import Rio.Crosswords.Bounds
import Rio.Crosswords.ImageCells

/-! Where the cells of an image are, while line feeds move its rows. -/

set_option linter.dupNamespace false

namespace Rio

/-! ### Line feeds -/

namespace Region

variable {r : Region} {n : ℕ} {line line' l : ℤ}

/-- No two lines are scrolled up from the same line. -/
theorem originUp_injective (h : r.originUp n line = some l) (h' : r.originUp n line' = some l) :
    line = line' := by
  unfold originUp at h h'
  split_ifs at h h' <;> injections <;> omega

end Region

/-- What is known of cells, after lines are scrolled. -/
def Shift.after {β : Type} (shift : Shift) (blank : β) (known : Pos → β) (p : Pos) : β :=
  match shift.origin p.row with
  | some l => known ⟨l, p.col⟩
  | .none => blank

theorem Shift.after_some {β : Type} {shift : Shift} {p : Pos} {l : ℤ}
    (hl : shift.origin p.row = some l) (blank : β) (known : Pos → β) :
    shift.after blank known p = known ⟨l, p.col⟩ := by
  unfold after
  rw [hl]

theorem Shift.after_none {β : Type} {shift : Shift} {p : Pos}
    (hl : shift.origin p.row = Option.none) (blank : β) (known : Pos → β) :
    shift.after blank known p = blank := by
  unfold after
  rw [hl]

namespace Crosswords

variable {s t t' : Crosswords} {p : Pos} {pending pending' : Pos → Prop} {textureId : ℕ}
  {image : Pos → Option GraphicCell} {text : Pos → Char × Wide × List Char} {n : ℕ}

theorem linefeedShift_injective {line line' l : ℤ} (h : t.linefeedShift.origin line = some l)
    (h' : t.linefeedShift.origin line' = some l) : line = line' := by
  unfold linefeedShift at h h'
  split_ifs at h h'
  · exact Region.originUp_injective h h'
  · exact Option.some.inj (h.trans h'.symm)

/-- After a line feed a cell is that of its origin, or blank. -/
theorem linefeed_cell (h : t.Sound False) (hregion : t.RegionOrdered)
    (hp : t.linefeed.grid.HasCell p) :
    (∃ l, t.linefeedShift.origin p.row = some l ∧ t.grid.HasCell ⟨l, p.col⟩ ∧
        t.linefeed.grid.cell p = t.grid.cell ⟨l, p.col⟩) ∨
      t.linefeedShift.origin p.row = none ∧ ∃ id, t.linefeed.grid.cell p = { lo := id } := by
  have horigin := linefeed_hasOrigin h hregion hp.1 hp.2.1
  have hcol := hp.2.2
  rw [linefeed_columns] at hcol
  cases hl : t.linefeedShift.origin p.row with
  | some l =>
    rw [hl] at horigin
    exact .inl ⟨l, rfl, ⟨horigin.1, horigin.2.1, hcol⟩, horigin.2.2 p.col⟩
  | none =>
    rw [hl] at horigin
    exact .inr ⟨rfl, _, Grid.cell_of_row_blank horigin hcol⟩

theorem cellText_linefeed (h : t.Sound False) (hregion : t.RegionOrdered)
    (hp : t.linefeed.grid.HasCell p) :
    t.linefeed.grid.cellText p = t.linefeedShift.after Grid.noText t.grid.cellText p := by
  obtain ⟨l, hl, -, hcell⟩ | ⟨hl, id, hcell⟩ := linefeed_cell h hregion hp
  · rw [Shift.after_some hl]
    exact Grid.cellText_of_cell hcell (linefeed_extrasTable t)
  · rw [Shift.after_none hl]
    exact Grid.cellText_of_blank hcell

theorem not_uses_of_blank {g : Grid Square} {id : StyleId} {id' : ExtrasId}
    (hcell : g.cell p = { lo := id }) : ¬g.Uses pending p id' := by
  rintro (⟨-, hslot⟩ | ⟨-, hflag, -⟩)
  · unfold Grid.slotOf at hslot
    rw [hcell] at hslot
    cases hslot
  · rw [hcell] at hflag
    cases hflag

/-- A line feed moves what cells show with their lines. -/
theorem overlaid_linefeed (h : t.Sound False) (hregion : t.RegionOrdered)
    (hover : t.grid.Overlaid textureId image pending text n)
    (hpending : ∀ p l, t.linefeedShift.origin p.row = some l →
      (pending' p ↔ pending ⟨l, p.col⟩)) :
    t.linefeed.grid.Overlaid textureId (t.linefeedShift.after none image) pending'
      (t.linefeedShift.after Grid.noText text) n := by
  have htable := linefeed_extrasTable t
  have huses {p : Pos} {l : ℤ} (hl : t.linefeedShift.origin p.row = some l)
      (hcell : t.linefeed.grid.cell p = t.grid.cell ⟨l, p.col⟩) {id : ExtrasId} :
      t.linefeed.grid.Uses pending' p id ↔ t.grid.Uses pending ⟨l, p.col⟩ id := by
    unfold Grid.Uses Grid.slotOf
    rw [hcell, hpending p l hl]
  refine ⟨⟨fun p id hp hid => ?_, fun p q id hp hq hpend hslot hid => ?_⟩, ?_, ?_,
    fun p shown hp hdone htexture => ?_, fun p hp => ?_⟩
  · obtain ⟨l, hl, hfrom, hcell⟩ | ⟨-, _, hcell⟩ := linefeed_cell h hregion hp
    · rw [htable]
      exact hover.occupied _ id hfrom ((huses hl hcell).mp hid)
    · exact absurd hid (not_uses_of_blank hcell)
  · obtain ⟨l, hl, hfrom, hcell⟩ | ⟨-, _, hcell⟩ := linefeed_cell h hregion hp
    · obtain ⟨k, hk, hfrom', hcell'⟩ | ⟨-, _, hcell'⟩ := linefeed_cell h hregion hq
      · have hslot' : t.grid.slotOf ⟨l, p.col⟩ = some id := by
          unfold Grid.slotOf at hslot ⊢
          rwa [hcell] at hslot
        have hsame := hover.apart _ _ id hfrom hfrom' ((hpending p l hl).mp hpend) hslot'
          ((huses hk hcell').mp hid)
        obtain ⟨hrow, hcol⟩ := Pos.mk.inj hsame
        rw [hrow] at hk
        exact congrArg₂ Pos.mk (linefeedShift_injective hk hl) hcol
      · exact absurd hid (not_uses_of_blank hcell')
    · exact absurd (Grid.uses_of_slot hpend hslot) (not_uses_of_blank hcell)
  · rw [htable]
    exact hover.stocked
  · rw [htable]
    exact hover.room
  · obtain ⟨l, hl, hfrom, hcell⟩ | ⟨hl, _, hcell⟩ := linefeed_cell h hregion hp
    · rw [hpending p l hl] at hdone
      rw [Shift.after_some hl, ← hover.shown _ shown hfrom hdone htexture]
      unfold Grid.cellGraphic
      rw [hcell, htable]
    · rw [Shift.after_none hl]
      unfold Grid.cellGraphic
      rw [hcell]
      rfl
  · obtain ⟨l, hl, hfrom, hcell⟩ | ⟨hl, _, hcell⟩ := linefeed_cell h hregion hp
    · rw [Shift.after_some hl, ← hover.text _ hfrom]
      exact Grid.cellText_of_cell hcell htable
    · rw [Shift.after_none hl]
      exact Grid.cellText_of_blank hcell

/-! ### The rows of an image -/

/-- Two terminals whose line feeds move the same lines. -/
structure Alike (s t : Crosswords) : Prop where
  pos : t.pos = s.pos
  region : t.scrollRegion = s.scrollRegion
  lines : t.grid.lines = s.grid.lines
  columns : t.grid.columns = s.grid.columns
  history : t.grid.historySize = s.grid.historySize
  limit : t.grid.maxScrollLimit = s.grid.maxScrollLimit

theorem Alike.linefeedShift (h : s.Alike t) : t.linefeedShift = s.linefeedShift := by
  unfold Crosswords.linefeedShift scrollCount
  rw [h.pos, h.region]

theorem Alike.hasCell (h : s.Alike t) : t.grid.HasCell p ↔ s.grid.HasCell p := by
  unfold Grid.HasCell
  rw [Grid.topmostLine_eq, Grid.topmostLine_eq, h.history, h.lines, h.columns]

theorem linefeed_col (t : Crosswords) : t.linefeed.pos.col = t.pos.col := by
  unfold pos
  obtain ⟨-, hgrid⟩ | ⟨-, -, hgrid⟩ | ⟨-, -, heq⟩ := linefeed_cases t
  · rw [hgrid, Grid.scrollUp_cursor]
  · rw [hgrid]
    rfl
  · rw [heq]

theorem linefeed_maxScrollLimit (t : Crosswords) :
    t.linefeed.grid.maxScrollLimit = t.grid.maxScrollLimit := by
  obtain ⟨-, hgrid⟩ | ⟨-, -, hgrid⟩ | ⟨-, -, heq⟩ := linefeed_cases t
  · rw [hgrid, Grid.scrollUp_maxScrollLimit]
  · rw [hgrid]
    rfl
  · rw [heq]

theorem Alike.linefeed (h : s.Alike t) (hs : s.Sound False) (ht : t.Sound False)
    (hregion : s.RegionOrdered) : s.linefeed.Alike t.linefeed := by
  have hregion' : t.RegionOrdered := by
    unfold RegionOrdered
    rw [h.region]
    exact hregion
  have hrolls := rolls_linefeed hs hregion
  have hrolls' := rolls_linefeed ht hregion'
  refine ⟨congrArg₂ Pos.mk ?_ ?_, ?_, ?_, ?_, ?_, ?_⟩
  · show t.linefeed.pos.row = s.linefeed.pos.row
    rw [linefeed_row, linefeed_row]
    unfold wrapRow
    rw [h.pos, h.region, h.lines]
  · exact (linefeed_col t).trans ((congrArg Pos.col h.pos).trans (linefeed_col s).symm)
  · rw [linefeed_scrollRegion, linefeed_scrollRegion, h.region]
  · rw [hrolls'.lines, hrolls.lines, h.lines]
  · rw [linefeed_columns, linefeed_columns, h.columns]
  · rw [hrolls'.history, hrolls.history, h.linefeedShift]
    unfold Shift.history
    rw [h.history, h.limit]
  · rw [linefeed_maxScrollLimit, linefeed_maxScrollLimit, h.limit]

end Crosswords

/-- The number of cells that cover a length. -/
def cellCount (length cell : ℕ) : ℕ := (length + cell - 1) / cell

theorem add_one_lt_cellCount_iff {length cell i : ℕ} (hcell : 0 < cell) :
    i + 1 < cellCount length cell ↔ i * cell < length - cell := by
  unfold cellCount
  rw [Nat.lt_iff_add_one_le, Nat.le_div_iff_mul_le hcell, Nat.succ_mul, Nat.succ_mul]
  omega

theorem mul_lt_of_lt_cellCount {length cell i : ℕ} (hcell : 0 < cell) (hlength : 0 < length)
    (hi : i < cellCount length cell) : i * cell < length := by
  unfold cellCount at hi
  rw [Nat.lt_iff_add_one_le, Nat.le_div_iff_mul_le hcell, Nat.succ_mul] at hi
  omega

theorem cellCount_pos {length cell : ℕ} (hcell : 0 < cell) (hlength : 0 < length) :
    0 < cellCount length cell :=
  Nat.div_pos (by omega) hcell

/-- An image of a size that is accepted, and the first of the columns that it covers. -/
structure ImageLayout where
  textureId : ℕ
  leftmost : ℕ
  width : ℕ
  height : ℕ
  cellWidth : ℕ
  cellHeight : ℕ
  width_pos : 0 < width
  width_le : width ≤ Crosswords.maxGraphicDimension
  height_pos : 0 < height
  height_le : height ≤ Crosswords.maxGraphicDimension
  cellWidth_pos : 0 < cellWidth
  cellHeight_pos : 0 < cellHeight
  cellHeight_lt : cellHeight < 65536

namespace ImageLayout

variable {l : ImageLayout} {t : Crosswords} {start line bottom bound : ℤ} {count : ℕ} {p : Pos}

def texture (l : ImageLayout) : TextureRef :=
  ⟨l.textureId, l.width.toUInt16, l.height.toUInt16, l.cellHeight⟩

def cols (l : ImageLayout) : ℕ := cellCount l.width l.cellWidth

def rows (l : ImageLayout) : ℕ := cellCount l.height l.cellHeight

theorem rows_pos (l : ImageLayout) : 0 < l.rows := cellCount_pos l.cellHeight_pos l.height_pos

/-- A line feed follows a row if more rows follow. -/
theorem more_rows_iff (l : ImageLayout) (k : ℕ) :
    k * l.cellHeight < l.height - l.cellHeight.toUInt16.toNat ↔ k + 1 < l.rows := by
  have hsame : l.cellHeight.toUInt16.toNat = l.cellHeight :=
    UInt16.toNat_ofNat_of_lt l.cellHeight_lt
  rw [hsame]
  exact (add_one_lt_cellCount_iff l.cellHeight_pos).symm

/-- A column that the image covers. -/
def Covers (l : ImageLayout) (col : ℕ) : Prop := l.leftmost ≤ col ∧ col < l.leftmost + l.cols

instance (l : ImageLayout) : DecidablePred l.Covers :=
  fun col => inferInstanceAs (Decidable (l.leftmost ≤ col ∧ col < l.leftmost + l.cols))

/-- The cells of the lines from `top` that the image is still to cover. -/
def Under (l : ImageLayout) (top bound : ℤ) (p : Pos) : Prop :=
  top ≤ p.row ∧ p.row < bound ∧ l.Covers p.col

/-- The first rows of the image, the last of them at line `bottom`. Rows that left a region at its
start are gone, unless it starts at the top of the screen. -/
def image (l : ImageLayout) (start bottom : ℤ) (count : ℕ) (p : Pos) : Option GraphicCell :=
  if bottom - count < p.row ∧ p.row ≤ bottom ∧ (start = 0 ∨ start ≤ p.row) ∧ l.Covers p.col then
    some (Grid.imagePart l.texture l.leftmost l.cellWidth
      ((p.row - (bottom - count + 1)).toNat * l.cellHeight) p.col)
  else none

theorem image_succ (hline : start = 0 ∨ start ≤ line) (p : Pos) :
    l.image start line (count + 1) p =
      Grid.withRow l.texture line l.leftmost l.cols l.cellWidth (count * l.cellHeight)
        (l.image start (line - 1) count) p := by
  by_cases hrow : p.row = line
  · have hoffset : (p.row - (line - ((count + 1 : ℕ) : ℤ) + 1)).toNat = count := by omega
    by_cases hcol : l.Covers p.col
    · rw [Grid.withRow_of_in ⟨hrow, hcol⟩]
      unfold image
      rw [hoffset, if_pos ⟨by omega, hrow.le, hrow ▸ hline, hcol⟩]
    · rw [Grid.withRow_of_not fun h => hcol h.2]
      unfold image
      rw [if_neg fun h => hcol h.2.2.2, if_neg fun h => hcol h.2.2.2]
  · have hoffset : p.row - (line - ((count + 1 : ℕ) : ℤ) + 1) = p.row - (line - 1 - count + 1) := by
      omega
    rw [Grid.withRow_of_not fun h => hrow h.1]
    unfold image
    rw [hoffset]
    refine if_congr (Iff.intro ?_ ?_) rfl rfl
    · rintro ⟨htop, hbottom, hrest⟩
      exact ⟨by omega, by omega, hrest⟩
    · rintro ⟨htop, hbottom, hrest⟩
      exact ⟨by omega, by omega, hrest⟩

theorem clamp_scrollCount (hstart : t.scrollRegion.start ≤ t.pos.row)
    (hstop : t.pos.row < t.scrollRegion.stop) :
    t.scrollRegion.clamp (t.scrollCount 1) = 1 := by
  unfold Region.clamp Crosswords.scrollCount
  omega

/-- A line feed brings no covered cells up but those of the lines under the cursor. -/
theorem under_linefeed (h : t.Sound False) (hstart : t.scrollRegion.start ≤ t.pos.row)
    (hstop : t.pos.row < t.scrollRegion.stop) (hbound : bound ≤ t.scrollRegion.stop)
    (hline : t.linefeedShift.origin p.row = some line) :
    l.Under t.linefeed.pos.row bound p ↔ l.Under (t.pos.row + 1) bound ⟨line, p.col⟩ := by
  have hbottom := h.region
  rw [Crosswords.linefeed_row]
  unfold Crosswords.wrapRow
  unfold Crosswords.linefeedShift at hline
  by_cases hnext : t.pos.row + 1 = t.scrollRegion.stop
  · rw [if_pos hnext] at hline ⊢
    refine iff_of_false ?_ fun ⟨htop, hbelow, _⟩ => ?_
    · rintro ⟨htop, hbelow, -⟩
      unfold Shift.origin Region.originUp at hline
      dsimp only at hline
      rw [clamp_scrollCount hstart hstop] at hline
      split_ifs at hline <;> omega
    · dsimp only at htop hbelow
      omega
  · rw [if_neg hnext] at hline ⊢
    rw [if_pos (by omega), ← Option.some.inj hline]

theorem image_linefeed (h : t.Sound False) (hstart : t.scrollRegion.start ≤ t.pos.row)
    (hstop : t.pos.row < t.scrollRegion.stop) (p : Pos) :
    t.linefeedShift.after none (l.image t.scrollRegion.start t.pos.row count) p =
      l.image t.scrollRegion.start (t.linefeed.pos.row - 1) count p := by
  have hbottom := h.region
  rw [Crosswords.linefeed_row]
  unfold Crosswords.wrapRow Crosswords.linefeedShift Shift.after
  by_cases hnext : t.pos.row + 1 = t.scrollRegion.stop
  · have hclamp := clamp_scrollCount hstart hstop
    rw [if_pos hnext, if_pos hnext]
    unfold Shift.origin Region.originUp
    dsimp only
    rw [hclamp]
    split_ifs with hfixed hmoved
    · unfold image
      dsimp only
      rw [if_neg (by omega), if_neg (by omega)]
    · have hoffset : p.row + (1 : ℕ) - (t.pos.row - count + 1) =
        p.row - (t.pos.row - 1 - count + 1) := by omega
      unfold image
      dsimp only
      rw [hoffset]
      refine if_congr (Iff.intro ?_ ?_) rfl rfl
      · rintro ⟨htop, hbottom, hregion, hcol⟩
        exact ⟨by omega, by omega, by omega, hcol⟩
      · rintro ⟨htop, hbottom, hregion, hcol⟩
        exact ⟨by omega, by omega, by omega, hcol⟩
    · unfold image
      dsimp only
      rw [if_neg (by omega)]
  · rw [if_neg hnext, if_neg hnext, if_pos (by omega), add_sub_cancel_right]
    rfl

end ImageLayout

namespace Crosswords

variable {t₀ t t' : Crosswords} {l : ImageLayout} {bound : ℤ} {done : ℕ}

theorem linefeeds_sound (h : t₀.Sound False) (done : ℕ) :
    (Crosswords.linefeed^[done] t₀).Sound False :=
  h.linefeeds done False.elim

theorem linefeeds_scrollRegion (t : Crosswords) (done : ℕ) :
    (Crosswords.linefeed^[done] t).scrollRegion = t.scrollRegion := by
  induction done with
  | zero => rfl
  | succ done ih => rw [Function.iterate_succ_apply', linefeed_scrollRegion, ih]

theorem linefeeds_ordered (hregion : t.RegionOrdered) (done : ℕ) :
    (Crosswords.linefeed^[done] t).RegionOrdered := by
  unfold RegionOrdered
  rw [linefeeds_scrollRegion]
  exact hregion

theorem linefeeds_row (h : t.Sound False) (hstop : t.pos.row < t.scrollRegion.stop) (done : ℕ) :
    (Crosswords.linefeed^[done] t).pos.row = min (t.pos.row + done) (t.scrollRegion.stop - 1) := by
  induction done with
  | zero =>
    show t.pos.row = _
    omega
  | succ done ih =>
    have hbottom := (linefeeds_sound h done).region
    rw [Function.iterate_succ_apply', linefeed_row]
    unfold wrapRow
    rw [linefeeds_scrollRegion] at hbottom ⊢
    rw [ih]
    split_ifs <;> omega

/-- Rows of an image are laid out, after some line feeds; the next row goes to the line `next`. -/
structure Stage (t₀ : Crosswords) (l : ImageLayout) (bound : ℤ) (feeds done : ℕ) (next : ℤ)
    (t : Crosswords) : Prop where
  sound : t.Sound False
  alike : (Crosswords.linefeed^[feeds] t₀).Alike t
  overlaid : t.grid.Overlaid l.texture.id (l.image t₀.scrollRegion.start (next - 1) done)
    (l.Under next bound) (Crosswords.linefeed^[feeds] t₀).grid.cellText ((l.rows - done) * l.cols)

theorem Alike.onlyCells {s : Crosswords} (h : s.Alike t) (hcells : t.OnlyCells t') :
    s.Alike t' := by
  obtain ⟨raw, extrasTable, hlen, rfl⟩ := hcells
  refine ⟨h.pos, h.region, h.lines, h.columns, ?_, h.limit⟩
  rw [← h.history, Grid.historySize_eq, Grid.historySize_eq]
  show raw.len - t.grid.lines = _
  rw [hlen]

/-- Laying out a row keeps the stage. -/
theorem Stage.place {feeds : ℕ} (h : t₀.Stage l bound feeds done t.pos.row t)
    (hregion : t.scrollRegion.start ≤ t.pos.row) (hbound : t.pos.row < bound)
    (hdone : done < l.rows) :
    t₀.Stage l bound feeds (done + 1) (t.pos.row + 1) (t.mapGrid fun g =>
      placeGraphicRow g t.pos.row l.leftmost (done * l.cellHeight) l.texture
        (cellOffsets l.width l.cellWidth)) := by
  have hstart : t₀.scrollRegion.start = t.scrollRegion.start := by
    rw [h.alike.region, linefeeds_scrollRegion]
  have hcolumns := h.sound.grid.columns_ge
  have hrow : t.grid.HasCell ⟨t.pos.row, 0⟩ :=
    ⟨h.sound.topmostLine_le_row, h.sound.grid.cursor.2.1, Nat.zero_lt_two.trans_le hcolumns⟩
  have hroom : (l.rows - done) * l.cols = l.cols + (l.rows - (done + 1)) * l.cols := by
    obtain ⟨rest, hrest⟩ : ∃ rest, l.rows - done = rest + 1 := ⟨l.rows - done - 1, by omega⟩
    have hless : l.rows - (done + 1) = rest := by omega
    rw [hrest, Nat.succ_mul, hless, Nat.add_comm]
  have hover := h.overlaid
  rw [hroom] at hover
  refine ⟨h.sound.placeGraphicRow _ _ _ _ _, h.alike.onlyCells (onlyCells_placeGraphicRow ..), ?_⟩
  show (placeGraphicRow t.grid t.pos.row l.leftmost (done * l.cellHeight) l.texture
    (cellOffsets l.width l.cellWidth)).Overlaid _ _ _ _ _
  rw [Grid.placeGraphicRow_eq]
  refine (hover.placeColumns h.sound.grid hrow fun p _ hin =>
    ⟨hin.1.ge, hin.1.trans_lt hbound, hin.2⟩).congr (fun p _ _ => ?_) fun p _ => ?_
  · rw [add_sub_cancel_right, hstart]
    exact ImageLayout.image_succ (.inr hregion) p
  · constructor
    · rintro ⟨htop, hbelow, hcol⟩
      refine ⟨⟨by omega, hbelow, hcol⟩, fun hin => ?_⟩
      have hline : p.row = t.pos.row := hin.1
      omega
    · rintro ⟨⟨htop, hbelow, hcol⟩, hout⟩
      have hline : p.row ≠ t.pos.row := fun heq => hout ⟨heq, hcol⟩
      exact ⟨by omega, hbelow, hcol⟩

/-- A line feed keeps the stage. -/
theorem Stage.linefeed {feeds : ℕ} (h₀ : t₀.Sound False) (hordered : t₀.RegionOrdered)
    (h : t₀.Stage l bound feeds done (t.pos.row + 1) t)
    (hstart : t.scrollRegion.start ≤ t.pos.row) (hstop : t.pos.row < t.scrollRegion.stop)
    (hbound : bound ≤ t.scrollRegion.stop) :
    t₀.Stage l bound (feeds + 1) done t.linefeed.pos.row t.linefeed := by
  have hs := linefeeds_sound h₀ feeds
  have hs' := linefeeds_ordered hordered feeds
  have hregion : t.RegionOrdered := by
    unfold RegionOrdered
    rw [h.alike.region]
    exact hs'
  have hsame : t₀.scrollRegion.start = t.scrollRegion.start := by
    rw [h.alike.region, linefeeds_scrollRegion]
  have hbottom := h.sound.region
  have halike : (Crosswords.linefeed^[feeds + 1] t₀).Alike t.linefeed := by
    rw [Function.iterate_succ_apply']
    exact h.alike.linefeed hs h.sound hs'
  have hsound : t.linefeed.Sound False := h.sound.linefeed (k := 0) False.elim
  have hover := h.overlaid
  rw [add_sub_cancel_right, hsame] at hover
  have hpending (p : Pos) (line : ℤ) (hline : t.linefeedShift.origin p.row = some line) :
      l.Under t.linefeed.pos.row bound p ↔ l.Under (t.pos.row + 1) bound ⟨line, p.col⟩ :=
    ImageLayout.under_linefeed h.sound hstart hstop hbound hline
  have hmoved := overlaid_linefeed h.sound hregion hover hpending
  refine ⟨hsound, halike,
    (hmoved.congr (fun p _ _ => ?_) fun p _ => Iff.rfl).congr_text fun p hp => ?_⟩
  · rw [hsame]
    exact (ImageLayout.image_linefeed h.sound hstart hstop p).symm
  · rw [halike.hasCell, Function.iterate_succ_apply'] at hp
    rw [Function.iterate_succ_apply', cellText_linefeed hs hs' hp, h.alike.linefeedShift]

/-- The cells that an image covers if it is not scrolled; line feeds bring up blank lines only. -/
def UnderImage (t : Crosswords) (cols rows : ℕ) (p : Pos) : Prop :=
  t.pos.row ≤ p.row ∧ p.row < min (t.pos.row + rows) t.scrollRegion.stop ∧
    t.pos.col ≤ p.col ∧ p.col < t.pos.col + cols

/-- An image fits: the cursor is in the scroll region, no cell shows its texture, the table has
room for its graphics, and the cells under it have slots of their own, if any. -/
structure Fits (t : Crosswords) (textureId cols rows : ℕ) : Prop where
  start : t.scrollRegion.start ≤ t.pos.row
  stop : t.pos.row < t.scrollRegion.stop
  fresh : ∀ p graphic, t.grid.HasCell p → t.grid.cellGraphic p = some graphic →
    graphic.texture.id ≠ textureId
  room : rows * cols ≤ t.grid.extrasTable.room
  slots : t.grid.OwnSlots (t.UnderImage cols rows)

/-- An image that fits is laid out from the cursor. -/
structure Starts (t : Crosswords) (l : ImageLayout) : Prop
    extends t.Fits l.texture.id l.cols l.rows where
  sound : t.Sound False
  ordered : t.RegionOrdered
  stocked : t.grid.extrasTable.Stocked
  leftmost : l.leftmost = t.pos.col

/-- The line below the last that the image covers if it is not scrolled. -/
def imageBound (t : Crosswords) (l : ImageLayout) : ℤ :=
  min (t.pos.row + l.rows) t.scrollRegion.stop

theorem Stage.region {feeds : ℕ} {next : ℤ} (h : t₀.Stage l bound feeds done next t) :
    t.scrollRegion = t₀.scrollRegion := by
  rw [h.alike.region, linefeeds_scrollRegion]

theorem Stage.row_eq {feeds : ℕ} {next : ℤ} (h : t₀.Stage l bound feeds done next t)
    (h₀ : t₀.Sound False) (hstop : t₀.pos.row < t₀.scrollRegion.stop) :
    t.pos.row = min (t₀.pos.row + feeds) (t₀.scrollRegion.stop - 1) := by
  rw [h.alike.pos, linefeeds_row h₀ hstop]

theorem Stage.damageLine {feeds : ℕ} {next : ℤ} (h : t₀.Stage l bound feeds done next t)
    (line : ℕ) : t₀.Stage l bound feeds done next (t.damageLine line) :=
  ⟨h.sound.damageLine line, ⟨h.alike.pos, h.alike.region, h.alike.lines, h.alike.columns,
    h.alike.history, h.alike.limit⟩, h.overlaid⟩

/-- Nothing is laid out yet. -/
theorem Starts.stage (h : t₀.Starts l) : t₀.Stage l (t₀.imageBound l) 0 0 t₀.pos.row t₀ := by
  have hslots := h.slots
  refine ⟨h.sound, ⟨rfl, rfl, rfl, rfl, rfl, rfl⟩, ?_⟩
  have hunder : l.Under t₀.pos.row (t₀.imageBound l) = t₀.UnderImage l.cols l.rows := by
    unfold ImageLayout.Under ImageLayout.Covers
    rw [h.leftmost]
    rfl
  rw [hunder]
  refine ⟨hslots, h.stocked, h.room, fun p graphic hp _ htexture =>
    iff_of_false (fun hshown => ?_) (fun himage => ?_), fun _ _ => rfl⟩
  · exact h.fresh p graphic hp hshown htexture
  · unfold ImageLayout.image at himage
    rw [if_neg (by omega)] at himage
    cases himage

/-! ### The run over the rows -/

/-- Lay out the cells of a row of an image. -/
def placeRow (l : ImageLayout) (t : Crosswords) (k : ℕ) : Crosswords :=
  (t.mapGrid fun g => placeGraphicRow g t.pos.row l.leftmost (k * l.cellHeight) l.texture
    (cellOffsets l.width l.cellWidth)).damageLine t.pos.row.toNat

/-- A row of an image that scrolls. -/
def fillRow (l : ImageLayout) (t : Crosswords) (k : ℕ) : Crosswords :=
  fillGraphicRow true l.leftmost l.texture l.width l.height l.cellWidth l.cellHeight t
    (k * l.cellHeight, k)

theorem placeRow_pos (l : ImageLayout) (t : Crosswords) (k : ℕ) : (placeRow l t k).pos = t.pos := by
  obtain ⟨raw, extrasTable, -, heq⟩ := onlyCells_placeGraphicRow t t.pos.row l.leftmost
    (k * l.cellHeight) l.texture (cellOffsets l.width l.cellWidth)
  unfold placeRow
  rw [heq]
  rfl

theorem fillRow_eq (l : ImageLayout) (t : Crosswords) (k : ℕ) :
    fillRow l t k = if k + 1 < l.rows then (placeRow l t k).linefeed else placeRow l t k := by
  unfold fillRow fillGraphicRow
  dsimp only
  rw [if_neg (by simp), if_pos rfl]
  exact if_congr ((and_iff_right rfl).trans (l.more_rows_iff k)) rfl rfl

theorem Stage.placeRow (h₀ : t₀.Starts l) (hdone : done < l.rows)
    (h : t₀.Stage l (t₀.imageBound l) done done t.pos.row t) :
    t₀.Stage l (t₀.imageBound l) done (done + 1) ((Crosswords.placeRow l t done).pos.row + 1)
      (Crosswords.placeRow l t done) := by
  have hrow := h.row_eq h₀.sound h₀.stop
  have hstart := h₀.start
  have hstop := h₀.stop
  rw [placeRow_pos]
  refine (h.place ?_ ?_ hdone).damageLine _
  · rw [h.region]
    omega
  · unfold imageBound
    omega

/-- A row that more rows follow is laid out, and a line feed comes after it. -/
theorem Stage.fillRow (h₀ : t₀.Starts l) (hmore : done + 1 < l.rows)
    (h : t₀.Stage l (t₀.imageBound l) done done t.pos.row t) :
    t₀.Stage l (t₀.imageBound l) (done + 1) (done + 1) (Crosswords.fillRow l t done).pos.row
      (Crosswords.fillRow l t done) := by
  have hplaced := h.placeRow h₀ (Nat.lt_of_succ_lt hmore)
  have hrow := hplaced.row_eq h₀.sound h₀.stop
  have hstart := h₀.start
  have hstop := h₀.stop
  rw [fillRow_eq, if_pos hmore]
  refine hplaced.linefeed h₀.sound h₀.ordered ?_ ?_ ?_
  · rw [hplaced.region]
    omega
  · rw [hplaced.region]
    omega
  · rw [hplaced.region]
    exact min_le_right _ _

/-- All rows but the last are laid out. -/
theorem Starts.rows (h₀ : t₀.Starts l) {done : ℕ} (hmore : done < l.rows) :
    t₀.Stage l (t₀.imageBound l) done done
      ((List.range done).foldl (Crosswords.fillRow l) t₀).pos.row
      ((List.range done).foldl (Crosswords.fillRow l) t₀) := by
  induction done with
  | zero => exact h₀.stage
  | succ done ih =>
    rw [List.range_succ, List.foldl_append]
    exact (ih (Nat.lt_of_succ_lt hmore)).fillRow h₀ hmore

/-- All rows are laid out. -/
theorem Starts.all (h₀ : t₀.Starts l) :
    t₀.Stage l (t₀.imageBound l) (l.rows - 1) l.rows
      (((List.range l.rows).foldl (Crosswords.fillRow l) t₀).pos.row + 1)
      ((List.range l.rows).foldl (Crosswords.fillRow l) t₀) := by
  have hpos := l.rows_pos
  obtain ⟨last, hlast⟩ : ∃ last, last + 1 = l.rows := ⟨l.rows - 1, by omega⟩
  have hmore : last < l.rows := hlast ▸ last.lt_succ_self
  have hplaced := (h₀.rows hmore).placeRow h₀ hmore
  have hfill : (List.range (last + 1)).foldl (Crosswords.fillRow l) t₀ =
      Crosswords.placeRow l ((List.range last).foldl (Crosswords.fillRow l) t₀) last := by
    rw [List.range_succ, List.foldl_append]
    exact (fillRow_eq l _ _).trans (if_neg (by omega))
  have hfeeds : l.rows - 1 = last := by omega
  rw [hfeeds, ← hlast, hfill]
  exact hplaced

/-- The rows of an image are filled one after the other. -/
theorem fillGraphic_eq (l : ImageLayout) (hleft : l.leftmost = t.pos.col)
    (hwidth : l.cellWidth = t.cellWidth) (hheight : l.cellHeight = t.cellHeight)
    (hscrolls : t.mode.sixelDisplay = false) :
    t.fillGraphic l.texture l.width l.height = (List.range l.rows).foldl (fillRow l) t := by
  unfold fillGraphic
  dsimp only
  rw [Grid.cellOffsets_zipIdx, List.foldl_map, hscrolls, ← hleft, ← hwidth, ← hheight]
  rfl

theorem linefeeds_maxScrollLimit (t : Crosswords) (feeds : ℕ) :
    (Crosswords.linefeed^[feeds] t).grid.maxScrollLimit = t.grid.maxScrollLimit := by
  induction feeds with
  | zero => rfl
  | succ feeds ih => rw [Function.iterate_succ_apply', linefeed_maxScrollLimit, ih]

/-- The lines that line feeds take off a region at the top of the screen go to the history, as
far as it is not full. -/
theorem linefeeds_historySize (h : t.Sound False) (hregion : t.RegionOrdered)
    (hstart : t.scrollRegion.start ≤ t.pos.row) (hstop : t.pos.row < t.scrollRegion.stop)
    (feeds : ℕ) :
    (Crosswords.linefeed^[feeds] t).grid.historySize =
      if t.scrollRegion.start = 0 then
        min (t.grid.historySize + (t.pos.row + feeds + 1 - t.scrollRegion.stop).toNat)
          t.grid.maxScrollLimit
      else t.grid.historySize := by
  have hlimit := h.grid.wellFormed.limit
  induction feeds with
  | zero =>
    show t.grid.historySize = _
    split_ifs
    · omega
    · rfl
  | succ feeds ih =>
    have hs := linefeeds_sound h feeds
    have hrow := linefeeds_row h hstop feeds
    have hsame := linefeeds_scrollRegion t feeds
    have hmax := linefeeds_maxScrollLimit t feeds
    have hhistory := (rolls_linefeed hs (linefeeds_ordered hregion feeds)).history
    rw [Function.iterate_succ_apply', hhistory]
    unfold linefeedShift scrollCount
    rw [hsame, hrow]
    by_cases hlast : t.scrollRegion.stop ≤ t.pos.row + feeds + 1
    · have hcount : min 1 (t.scrollRegion.stop - t.scrollRegion.start).toNat = 1 := by omega
      have hmore : (t.pos.row + (feeds + 1 : ℕ) + 1 - t.scrollRegion.stop).toNat =
          (t.pos.row + feeds + 1 - t.scrollRegion.stop).toNat + 1 := by omega
      rw [if_pos (by omega)]
      unfold Shift.history
      dsimp only
      rw [hmax, ih, hcount, hmore]
      split_ifs
      · rw [min_add, min_assoc, min_eq_right (Nat.le_succ t.grid.maxScrollLimit), Nat.add_assoc]
      · rfl
    · have hnone : (t.pos.row + feeds + 1 - t.scrollRegion.stop).toNat = 0 := by omega
      have hnone' : (t.pos.row + (feeds + 1 : ℕ) + 1 - t.scrollRegion.stop).toNat = 0 := by omega
      rw [if_neg (by omega)]
      unfold Shift.history
      dsimp only
      rw [ih, hnone, hnone']

/-! ### The result -/

/-- A cell shows a part of an image: it is in one of the columns and in one of the rows that end
at the line `bottom`. Rows that left a region at its start are gone, unless it starts at the top. -/
def ShowsPart (start bottom : ℤ) (leftmost width height cellWidth cellHeight : ℕ) (p : Pos)
    (graphic : GraphicCell) : Prop :=
  ∃ k i : ℕ, k < cellCount height cellHeight ∧ i < cellCount width cellWidth ∧
    p.row = bottom - (cellCount height cellHeight - 1 - k : ℕ) ∧ (start = 0 ∨ start ≤ p.row) ∧
    p.col = leftmost + i ∧ graphic.texture.width.toNat = width ∧
    graphic.texture.height.toNat = height ∧ graphic.texture.cellHeight = cellHeight ∧
    graphic.offsetX.toNat = i * cellWidth ∧ graphic.offsetY.toNat = k * cellHeight

theorem toNat_toUInt16 {n : ℕ} (h : n ≤ maxGraphicDimension) : n.toUInt16.toNat = n := by
  exact UInt16.toNat_ofNat_of_lt (h.trans_lt (by decide))

theorem image_eq_some_iff (l : ImageLayout) {start bottom : ℤ} {p : Pos} {graphic : GraphicCell}
    (htexture : graphic.texture.id = l.textureId) :
    l.image start bottom l.rows p = some graphic ↔
      ShowsPart start bottom l.leftmost l.width l.height l.cellWidth l.cellHeight p graphic := by
  have hpos := l.rows_pos
  have hx {i : ℕ} (hi : i < l.cols) : (i * l.cellWidth).toUInt16.toNat = i * l.cellWidth :=
    toNat_toUInt16 ((mul_lt_of_lt_cellCount l.cellWidth_pos l.width_pos hi).le.trans l.width_le)
  have hy {k : ℕ} (hk : k < l.rows) : (k * l.cellHeight).toUInt16.toNat = k * l.cellHeight :=
    toNat_toUInt16 ((mul_lt_of_lt_cellCount l.cellHeight_pos l.height_pos hk).le.trans l.height_le)
  constructor
  · intro himage
    unfold ImageLayout.image at himage
    split_ifs at himage with hin
    obtain ⟨htop, hbottom, hregion, hleft, hright⟩ := hin
    have hk : (p.row - (bottom - l.rows + 1)).toNat < l.rows := by omega
    have hi : p.col - l.leftmost < l.cols := by omega
    rw [← Option.some.inj himage]
    refine ⟨(p.row - (bottom - l.rows + 1)).toNat, p.col - l.leftmost, hk, hi, ?_, hregion,
      by omega, toNat_toUInt16 l.width_le, toNat_toUInt16 l.height_le, rfl, hx hi, hy hk⟩
    show p.row = bottom - (l.rows - 1 - (p.row - (bottom - l.rows + 1)).toNat : ℕ)
    omega
  · rintro ⟨k, i, hk, hi, hrow, hregion, hcol, hwidth, hheight, hcell, hoffsetX, hoffsetY⟩
    change k < l.rows at hk
    change i < l.cols at hi
    change p.row = bottom - (l.rows - 1 - k : ℕ) at hrow
    have hcovers : l.Covers p.col := ⟨by omega, by omega⟩
    have hleft : p.col - l.leftmost = i := by omega
    have htop : (p.row - (bottom - l.rows + 1)).toNat = k := by omega
    unfold ImageLayout.image Grid.imagePart
    rw [if_pos ⟨by omega, by omega, hregion, hcovers⟩, hleft, htop]
    obtain ⟨⟨id, width, height, cellHeight⟩, offsetX, offsetY⟩ := graphic
    have hwidth' : l.width.toUInt16 = width :=
      UInt16.toNat_inj.mp ((toNat_toUInt16 l.width_le).trans hwidth.symm)
    have hheight' : l.height.toUInt16 = height :=
      UInt16.toNat_inj.mp ((toNat_toUInt16 l.height_le).trans hheight.symm)
    have hx' : (i * l.cellWidth).toUInt16 = offsetX :=
      UInt16.toNat_inj.mp ((hx hi).trans hoffsetX.symm)
    have hy' : (k * l.cellHeight).toUInt16 = offsetY :=
      UInt16.toNat_inj.mp ((hy hk).trans hoffsetY.symm)
    dsimp only at htexture hcell
    unfold ImageLayout.texture
    rw [hx', hy', hwidth', hheight', ← htexture, ← hcell]

/-- The cursor moves on its row when an image is laid out. -/
theorem insertGraphic_grid (t : Crosswords) (textureId graphicWidth : ℕ) {width height : ℕ}
    (cursorMovement : Option UInt8) (hwidth : 0 < width) (hwidth' : width ≤ maxGraphicDimension)
    (hheight : 0 < height) (hheight' : height ≤ maxGraphicDimension) :
    ∃ cursor, (t.insertGraphic textureId graphicWidth width height cursorMovement).grid =
        { (t.fillGraphic ⟨textureId, width.toUInt16, height.toUInt16, t.cellHeight⟩ width
          height).grid with cursor := cursor } ∧
      cursor.pos.row = (t.fillGraphic ⟨textureId, width.toUInt16, height.toUInt16, t.cellHeight⟩
        width height).pos.row := by
  unfold insertGraphic
  rw [if_neg (by omega), if_neg (by omega)]
  dsimp only
  generalize t.fillGraphic ⟨textureId, width.toUInt16, height.toUInt16, t.cellHeight⟩ width
    height = t'
  split
  · split_ifs
    · exact ⟨_, rfl, rfl⟩
    · exact ⟨_, rfl, rfl⟩
    · exact ⟨t'.grid.cursor, rfl, rfl⟩
  · split_ifs
    · exact ⟨_, rfl, rfl⟩
    · exact ⟨_, rfl, rfl⟩
    · exact ⟨t'.grid.cursor, rfl, rfl⟩
  · exact ⟨t'.grid.cursor, rfl, rfl⟩
  · split_ifs
    · exact ⟨_, rfl, rfl⟩
    · exact ⟨t'.grid.cursor, rfl, rfl⟩

/-- An image is laid out from the cursor: its rows end at the row that the cursor is left on, the
history has the rows that left the screen as far as it has room, the cells of the image show its
parts and no others do, and the text is what the line feeds alone leave. -/
structure LaysOut (t t' : Crosswords) (textureId width height : ℕ) : Prop where
  row : t'.pos.row =
    min (t.pos.row + (cellCount height t.cellHeight - 1 : ℕ)) (t.scrollRegion.stop - 1)
  history : t'.grid.historySize =
    if t.scrollRegion.start = 0 then
      min (t.grid.historySize + (t.pos.row + (cellCount height t.cellHeight - 1 : ℕ) + 1 -
        t.scrollRegion.stop).toNat) t.grid.maxScrollLimit
    else t.grid.historySize
  cells : ∀ p graphic, t'.grid.HasCell p → graphic.texture.id = textureId →
    (t'.grid.cellGraphic p = some graphic ↔ ShowsPart t.scrollRegion.start t'.pos.row t.pos.col
      width height t.cellWidth t.cellHeight p graphic)
  hasCell : ∀ p, t'.grid.HasCell p ↔
    (Crosswords.linefeed^[cellCount height t.cellHeight - 1] t).grid.HasCell p
  text : ∀ p, t'.grid.HasCell p → t'.grid.cellText p =
    (Crosswords.linefeed^[cellCount height t.cellHeight - 1] t).grid.cellText p

theorem Starts.laysOut (h : t.Starts l) (hwidth : l.cellWidth = t.cellWidth)
    (hheight : l.cellHeight = t.cellHeight) (hscrolls : t.mode.sixelDisplay = false)
    (graphicWidth : ℕ) (cursorMovement : Option UInt8) :
    t.LaysOut (t.insertGraphic l.textureId graphicWidth l.width l.height cursorMovement)
      l.textureId l.width l.height := by
  have hstage := h.all
  obtain ⟨cursor, hgrid, hcursor⟩ := insertGraphic_grid t l.textureId graphicWidth cursorMovement
    l.width_pos l.width_le l.height_pos l.height_le
  have htexture : (⟨l.textureId, l.width.toUInt16, l.height.toUInt16, t.cellHeight⟩ : TextureRef) =
      l.texture := by
    rw [← hheight]
    rfl
  rw [htexture, fillGraphic_eq l h.leftmost hwidth hheight hscrolls] at hgrid hcursor
  generalize (List.range l.rows).foldl (fillRow l) t = t' at hstage hgrid hcursor
  generalize t.insertGraphic l.textureId graphicWidth l.width l.height cursorMovement = t'' at hgrid
  have hrow : t''.pos.row = t'.pos.row := by
    unfold pos
    rw [hgrid]
    exact hcursor
  have hrows : cellCount l.height t.cellHeight = l.rows := by
    rw [← hheight]
    rfl
  have hcell (p : Pos) : t''.grid.HasCell p ↔ t'.grid.HasCell p := by
    rw [hgrid]
    rfl
  have hover := hstage.overlaid
  rw [add_sub_cancel_right] at hover
  refine ⟨?_, ?_, fun p graphic hp hid => ?_, fun p => ?_, fun p hp => ?_⟩
  · rw [hrow, hrows, hstage.row_eq h.sound h.stop]
  · rw [hrows, ← linefeeds_historySize h.sound h.ordered h.start h.stop, ← hstage.alike.history,
      hgrid]
    rfl
  · rw [hcell] at hp
    have hdone : ¬l.Under (t'.pos.row + 1) (t.imageBound l) p := by
      rintro ⟨htop, hbelow, -⟩
      have hlast := hstage.row_eq h.sound h.stop
      have hpos := l.rows_pos
      unfold imageBound at hbelow
      omega
    have hshown := hover.shown p graphic hp hdone hid
    rw [image_eq_some_iff l hid] at hshown
    rw [hrow, ← hwidth, ← hheight, ← h.leftmost, ← hshown, hgrid]
    rfl
  · rw [hcell, hrows]
    exact hstage.alike.hasCell
  · rw [hcell] at hp
    rw [hrows, ← hover.text p hp, hgrid]
    rfl

/-- An image fits over blank cells. -/
theorem fits_of_blank {textureId cols rows : ℕ}
    (hblank : ∀ p, t.grid.HasCell p → ∃ id, t.grid.cell p = { lo := id })
    (hstart : t.scrollRegion.start ≤ t.pos.row) (hstop : t.pos.row < t.scrollRegion.stop)
    (hroom : rows * cols ≤ t.grid.extrasTable.room) : t.Fits textureId cols rows := by
  refine ⟨hstart, hstop, fun p graphic hp hshown => ?_, hroom, fun p id hp hid => ?_,
    fun p q id hp _ hunder hslot _ => ?_⟩
  · obtain ⟨id, hcell⟩ := hblank p hp
    unfold Grid.cellGraphic at hshown
    rw [hcell] at hshown
    cases hshown
  · obtain ⟨style, hcell⟩ := hblank p hp
    exact absurd hid (not_uses_of_blank hcell)
  · obtain ⟨style, hcell⟩ := hblank p hp
    exact absurd (Grid.uses_of_slot hunder hslot) (not_uses_of_blank hcell)

/-- In every run an image that fits is laid out from the cursor. -/
theorem insertGraphic_laysOut (u : Unicode) {columns lines : ℕ} (hcolumns : 2 ≤ columns)
    (hlines : 1 ≤ lines) (limit : ℕ) {ops : List Op} (hsized : ∀ op ∈ ops, op.Sized)
    (hplaced : ∀ op ∈ ops, Placed op) (ht : t = (new columns lines limit).run u ops)
    {textureId width height : ℕ} (hwidth : 0 < width) (hwidth' : width ≤ maxGraphicDimension)
    (hheight : 0 < height) (hheight' : height ≤ maxGraphicDimension)
    (hcellWidth : 0 < t.cellWidth) (hcellHeight : 0 < t.cellHeight)
    (hcellHeight' : t.cellHeight < 65536) (hscrolls : t.mode.sixelDisplay = false)
    (hfits : t.Fits textureId (cellCount width t.cellWidth) (cellCount height t.cellHeight))
    (graphicWidth : ℕ) (cursorMovement : Option UInt8) :
    t.LaysOut (t.insertGraphic textureId graphicWidth width height cursorMovement) textureId width
      height := by
  have hsound : t.Sound False := ht ▸ run_sound u hcolumns hlines limit hsized
  have hready : t.Ready := ht ▸ run_ready u columns lines limit hplaced
  have hstocked : t.Stocked := ht ▸ run_stocked u columns lines limit hplaced
  let l : ImageLayout := ⟨textureId, t.pos.col, width, height, t.cellWidth, t.cellHeight, hwidth,
    hwidth', hheight, hheight', hcellWidth, hcellHeight, hcellHeight'⟩
  have hstarts : t.Starts l := ⟨hfits, hsound, hready.region, hstocked.1, rfl⟩
  exact hstarts.laysOut rfl rfl hscrolls graphicWidth cursorMovement

theorem insertGraphic_laysOut_scrolled :
    ((new 3 1 5).run .basic [.resize 2 1 1 1]).LaysOut
      (((new 3 1 5).run .basic [.resize 2 1 1 1]).insertGraphic 7 1 1 2 none) 7 1 2 := by
  refine insertGraphic_laysOut .basic (by decide) (by decide) 5 (by simp [Op.Sized])
    (by simp [Placed]) rfl (by decide) (by decide) (by decide) (by decide) (by decide) (by decide)
    (by decide) (by decide) (fits_of_blank ?_ (by decide) (by decide) (by decide)) 1 none
  rintro ⟨row, col⟩ ⟨htop, hline, hcol⟩
  change 0 ≤ row at htop
  change row < 1 at hline
  change col < 2 at hcol
  obtain rfl : row = 0 := by omega
  obtain rfl | rfl : col = 0 ∨ col = 1 := by omega
  · exact ⟨0, by decide⟩
  · exact ⟨0, by decide⟩

/-- The alternate screen has no history for the rows of an image that leave it. -/
theorem alternate_screen_drops_row :
    ∃ t t' : Crosswords,
      t = (new 3 1 5).run .basic
        [.setPrivateMode (.named .swapScreenAndSetRestoreCursor), .resize 2 1 1 1] ∧
      t' = t.insertGraphic 7 1 1 2 none ∧ t.mode.sixelDisplay = false ∧ t.cellWidth = 1 ∧
      t.cellHeight = 1 ∧ t.scrollRegion.start = 0 ∧ t.scrollRegion.start ≤ t.pos.row ∧
      t.pos.row < t.scrollRegion.stop ∧ t'.pos.row - 1 < t'.grid.topmostLine :=
  ⟨_, _, rfl, rfl, by decide, by decide, by decide, by decide, by decide, by decide, by decide⟩

end Crosswords
end Rio
