import Rio.Grid.Resize
import Rio.Grid.Scroll
import Rio.Grid.Template

/-! What holds of a grid at all times: its shape, where its cursors are, and how far it is
scrolled back. -/

set_option linter.dupNamespace false

namespace Rio

/-- A position on a screen. -/
def Pos.OnScreen (lines columns : ℕ) (p : Pos) : Prop :=
  0 ≤ p.row ∧ p.row < lines ∧ p.col < columns

theorem Row.modify_len {α : Type} (r : Row α) (col : ℕ) (f : α → α) :
    (r.modify col f).len = r.len := by
  simp [Row.modify, Row.len]

theorem Row.new_len {α : Type} [Inhabited α] (columns : ℕ) :
    (Row.new columns : Row α).len = columns := by
  simp [Row.new, Row.len]

theorem Row.fill_len {α : Type} (r : Row α) (start stop : ℕ) (c : α) :
    (r.fill start stop c).len = r.len := by
  simp [Row.fill, Row.len]

theorem Row.fillFrom_len {α : Type} (r : Row α) (start : ℕ) (c : α) :
    (r.fillFrom start c).len = r.len := by
  simp [Row.fillFrom, Row.modifyAll, Row.len]

namespace Storage

variable {α : Type}

theorem sameLayout_rotate {s : Storage α} (hs : s.WellFormed) (hlen : 0 < s.len) (count : ℤ) :
    SameLayout s (s.rotate count) := by
  have := hs.len_le
  exact ⟨rotate_wellFormed hs (by omega) count, rfl, rfl, rfl⟩

theorem sameLayout_rotateDown {s : Storage α} (hs : s.WellFormed) (hlen : 0 < s.len)
    (count : ℕ) : SameLayout s (s.rotateDown count) := by
  have := hs.len_le
  exact ⟨rotateDown_wellFormed hs (by omega) count, rfl, rfl, rfl⟩

end Storage

namespace Grid

section Shape

variable {α : Type}

/-- The shape of a grid as numbers. -/
theorem historySize_eq (g : Grid α) : g.historySize = g.raw.len - g.lines := rfl

/-- Rows change, the layout stays. -/
theorem WellFormed.of_layout {g : Grid α} (hg : g.WellFormed) {raw : Storage α}
    (hraw : Storage.SameLayout g.raw raw) (hwidth : raw.AllRows fun r => r.len = g.columns) :
    WellFormed { g with raw := raw } := by
  have hvisible := hg.visible
  have hfilled := hg.filled
  have hlimit := hg.limit
  rw [historySize_eq] at hlimit
  constructor
  · exact hraw.wellFormed
  · simpa only [hraw.visibleLines] using hvisible
  · simpa only [hraw.len] using hfilled
  · simpa only [historySize_eq, hraw.len] using hlimit
  · exact hwidth

theorem WellFormed.withDisplay {g : Grid α} (hg : g.WellFormed) (offset : ℕ) :
    WellFormed { g with displayOffset := offset } :=
  ⟨hg.storage, hg.visible, hg.filled, hg.limit, hg.width⟩

theorem WellFormed.withCursor {g : Grid α} (hg : g.WellFormed) (cursor : Cursor α) :
    WellFormed { g with cursor := cursor } :=
  ⟨hg.storage, hg.visible, hg.filled, hg.limit, hg.width⟩

theorem WellFormed.len_pos {g : Grid α} (hg : g.WellFormed) (hlines : 1 ≤ g.lines) :
    0 < g.raw.len := by
  have := hg.filled
  omega

/-- The storage drops rows of the history. -/
theorem WellFormed.shrinkRaw {g : Grid α} (hg : g.WellFormed) {k : ℕ} (hk : k ≤ g.historySize) :
    WellFormed { g with raw := g.raw.shrinkLines k } := by
  have hvisible := hg.visible
  have hfilled := hg.filled
  have hlimit := hg.limit
  rw [historySize_eq] at hk hlimit
  constructor
  · exact Storage.shrinkLines_wellFormed hg.storage k
  · simpa only [Storage.shrinkLines_visibleLines] using hvisible
  · simp only [Storage.shrinkLines_len]
    omega
  · simp only [historySize_eq, Storage.shrinkLines_len]
    omega
  · exact hg.width.shrinkLines k

theorem historySize_shrinkRaw (g : Grid α) (k : ℕ) :
    historySize { g with raw := g.raw.shrinkLines k } = g.historySize - k := by
  simp only [historySize_eq, Storage.shrinkLines_len]
  omega

theorem clearHistory_wellFormed {g : Grid α} (hg : g.WellFormed) : g.clearHistory.WellFormed := by
  have h := hg.shrinkRaw le_rfl
  exact ⟨h.storage, h.visible, h.filled, h.limit, h.width⟩

theorem updateHistory_eq (g : Grid α) (size : ℕ) :
    g.updateHistory size =
      { g with
        raw :=
          if size < g.historySize then g.raw.shrinkLines (g.historySize - size) else g.raw
        displayOffset := min g.displayOffset size
        maxScrollLimit := size } := rfl

theorem historySize_updateHistory (g : Grid α) (size : ℕ) :
    (g.updateHistory size).historySize = min g.historySize size := by
  by_cases h : size < g.historySize
  · rw [updateHistory_eq, if_pos h]
    have := historySize_shrinkRaw g (g.historySize - size)
    rw [historySize_eq] at this ⊢
    simp only at this ⊢
    omega
  · rw [updateHistory_eq, if_neg h]
    show g.historySize = min g.historySize size
    omega

theorem updateHistory_wellFormed {g : Grid α} (hg : g.WellFormed) (size : ℕ) :
    (g.updateHistory size).WellFormed := by
  have hlimit : (g.updateHistory size).historySize ≤ size := by
    rw [historySize_updateHistory]
    exact min_le_right _ _
  by_cases h : size < g.historySize
  · have hs := hg.shrinkRaw (show g.historySize - size ≤ g.historySize by omega)
    rw [updateHistory_eq, if_pos h] at hlimit ⊢
    exact ⟨hs.storage, hs.visible, hs.filled, hlimit, hs.width⟩
  · rw [updateHistory_eq, if_neg h] at hlimit ⊢
    exact ⟨hg.storage, hg.visible, hg.filled, hlimit, hg.width⟩

theorem decreaseScrollLimit_eq (g : Grid α) (count : ℕ) :
    g.decreaseScrollLimit count =
      if min count g.historySize = 0 then g
      else
        { g with
          raw := g.raw.shrinkLines (min count g.historySize)
          displayOffset := min g.displayOffset (g.historySize - min count g.historySize) } := by
  unfold decreaseScrollLimit
  dsimp only
  have hmin : min (min count g.historySize) g.historySize = min count g.historySize := by omega
  rw [hmin, historySize_shrinkRaw]
  split_ifs <;> first | rfl | contradiction

theorem decreaseScrollLimit_wellFormed {g : Grid α} (hg : g.WellFormed) (count : ℕ) :
    (g.decreaseScrollLimit count).WellFormed := by
  rw [decreaseScrollLimit_eq]
  split_ifs
  · exact hg
  · have h := hg.shrinkRaw (show min count g.historySize ≤ g.historySize by omega)
    exact ⟨h.storage, h.visible, h.filled, h.limit, h.width⟩

theorem modifyRow_wellFormed {g : Grid α} (hg : g.WellFormed) (line : ℤ) {f : Row α → Row α}
    (hf : ∀ r, (f r).len = r.len) : (g.modifyRow line f).WellFormed :=
  hg.of_layout (Storage.sameLayout_modify hg.storage line f)
    (hg.width.modify line fun r hr => (hf r).trans hr)

theorem markLines_wellFormed {g : Grid α} (hg : g.WellFormed) (ls : List ℤ) :
    WellFormed { g with raw := g.raw.markLines ls } :=
  hg.of_layout (Storage.sameLayout_markLines hg.storage ls) (hg.width.markLines (fun _ h => h) ls)

theorem swapLines_wellFormed {g : Grid α} (hg : g.WellFormed) (shift : ℤ) (ls : List ℤ) :
    WellFormed { g with raw := g.raw.swapLines shift ls } :=
  hg.of_layout (Storage.sameLayout_swapLines hg.storage shift ls) (hg.width.swapLines shift ls)

variable [GridSquare α]

theorem resetLines_wellFormed {g : Grid α} (hg : g.WellFormed) (template : α) (ls : List ℤ) :
    WellFormed { g with raw := g.raw.resetLines template ls } :=
  hg.of_layout (Storage.sameLayout_resetLines hg.storage template ls)
    (hg.width.resetLines (fun r hr => (Row.reset_len r template).trans hr) ls)

theorem increaseScrollLimit_eq {g : Grid α} (hg : g.WellFormed) (n : ℕ) :
    g.increaseScrollLimit n =
      { g with
        raw := g.raw.initializeRows (min n (g.maxScrollLimit - g.historySize)) g.columns } := by
  rw [← increaseScrollLimit_raw hg]
  unfold increaseScrollLimit
  dsimp only
  split_ifs <;> rfl

theorem increaseScrollLimit_wellFormed {g : Grid α} (hg : g.WellFormed) (n : ℕ) :
    (g.increaseScrollLimit n).WellFormed := by
  have hvisible := hg.visible
  have hfilled := hg.filled
  have hlimit := hg.limit
  rw [increaseScrollLimit_eq hg]
  constructor
  · exact Storage.initializeRows_wellFormed hg.storage _ _
  · simpa only [Storage.initializeRows_visibleLines] using hvisible
  · simp only [Storage.initializeRows_len]
    omega
  · simp only [historySize_eq, Storage.initializeRows_len] at hlimit ⊢
    omega
  · exact hg.width.initializeRows _ _ (Row.new_len _)

theorem scrollUp_wellFormed {g : Grid α} (hg : g.WellFormed) (hlines : 1 ≤ g.lines) (r : Region)
    (n : ℕ) : (g.scrollUp r n).WellFormed := by
  have hraw : WellFormed { g with raw := (g.scrollUp r n).raw } := by
    by_cases hall : r.stop - r.start ≤ n ∧ r.start ≠ 0
    · rw [scrollUp_raw_reset hall]
      exact resetLines_wellFormed hg _ _
    · by_cases hstart : r.start = 0
      · have hgrown := increaseScrollLimit_wellFormed hg n
        rw [scrollUp_raw_top hstart]
        rw [increaseScrollLimit_eq hg] at hgrown ⊢
        have hrotated := hgrown.of_layout
          (Storage.sameLayout_rotate hgrown.storage (hgrown.len_pos hlines) (-(n : ℤ)))
          hgrown.width
        exact markLines_wellFormed
          (resetLines_wellFormed (swapLines_wellFormed hrotated _ _) _ _) _
      · rw [scrollUp_raw_inner hall hstart]
        exact markLines_wellFormed (resetLines_wellFormed (swapLines_wellFormed hg _ _) _ _) _
  rw [scrollUp_eq]
  exact hraw.withDisplay _

theorem scrollDown_wellFormed {g : Grid α} (hg : g.WellFormed) (hlines : 1 ≤ g.lines) (r : Region)
    (n : ℕ) : (g.scrollDown r n).WellFormed := by
  rw [scrollDown_eq]
  by_cases hall : r.stop - r.start ≤ n
  · rw [scrollDown_raw_reset hall]
    exact resetLines_wellFormed hg _ _
  · by_cases hmax : g.maxScrollLimit = 0
    · rw [scrollDown_raw_rotate hall hmax]
      have hswap := swapLines_wellFormed hg n (lineRange (r.stop - n) (g.lines - n))
      have hrotated := hswap.of_layout
        (Storage.sameLayout_rotateDown hswap.storage (hswap.len_pos hlines) n) hswap.width
      exact markLines_wellFormed
        (swapLines_wellFormed (resetLines_wellFormed hrotated _ _) _ _) _
    · rw [scrollDown_raw_swap hall hmax]
      exact markLines_wellFormed (resetLines_wellFormed (swapLines_wellFormed hg _ _) _ _) _

theorem reset_wellFormed {g : Grid α} (hg : g.WellFormed) : g.reset.WellFormed := by
  have h := clearHistory_wellFormed hg
  exact resetLines_wellFormed (g := { g.clearHistory with
    savedCursor := default, cursor := default, displayOffset := 0 })
    ⟨h.storage, h.visible, h.filled, h.limit, h.width⟩ _ _

theorem clearViewport_wellFormed {g : Grid α} (hg : g.WellFormed) (hlines : 1 ≤ g.lines) :
    g.clearViewport.WellFormed :=
  resetLines_wellFormed (scrollUp_wellFormed hg hlines _ _) _ _

end Shape

/-! ### Soundness -/

/-- What holds of a grid at all times. Where `D` holds, its display shows rows that exist. -/
structure Sound (D : Prop) (g : Grid Square) : Prop where
  wellFormed : g.WellFormed
  lines_pos : 1 ≤ g.lines
  columns_ge : 2 ≤ g.columns
  cursor : g.cursor.pos.OnScreen g.lines g.columns
  savedCursor : g.savedCursor.pos.OnScreen g.lines g.columns
  display : D → g.displayOffset ≤ g.historySize

/-- Scrolling up keeps the display within the history: the region starts at the top of the
screen, or is cleared as a whole, or the display is not scrolled back that far. -/
def ScrollHolds (g : Grid Square) (r : Region) (n : ℕ) : Prop :=
  r.start = 0 ∨ r.stop - r.start ≤ n ∨ g.displayOffset = 0 ∨
    min (g.displayOffset + n) g.maxScrollLimit ≤ g.historySize

variable {D : Prop} {g : Grid Square}

theorem displayOffset_scrollUp (g : Grid Square) (r : Region) (n : ℕ) :
    (g.scrollUp r n).displayOffset =
      if r.stop - r.start ≤ n ∧ r.start ≠ 0 then g.displayOffset
      else if g.displayOffset ≠ 0 then min (g.displayOffset + n) g.maxScrollLimit
      else g.displayOffset := by
  unfold scrollUp increaseScrollLimit holdDisplay
  dsimp only
  split_ifs <;> rfl

theorem historySize_scrollUp_inner {r : Region} (hstart : r.start ≠ 0) (n : ℕ) :
    (g.scrollUp r n).historySize = g.historySize := by
  have hlen : (g.scrollUp r n).raw.len = g.raw.len := by
    by_cases hall : r.stop - r.start ≤ n ∧ r.start ≠ 0
    · rw [scrollUp_raw_reset hall, Storage.resetLines_len]
    · rw [scrollUp_raw_inner hall hstart, Storage.markLines_len, Storage.resetLines_len,
        Storage.swapLines_len]
  rw [historySize_eq, historySize_eq, hlen, scrollUp_lines]

/-- The display stays within the history exactly when scrolling up holds it there. -/
theorem display_scrollUp_iff (hg : g.WellFormed) (hdisplay : g.displayOffset ≤ g.historySize)
    (r : Region) (n : ℕ) :
    (g.scrollUp r n).displayOffset ≤ (g.scrollUp r n).historySize ↔ g.ScrollHolds r n := by
  have hlimit := hg.limit
  rw [displayOffset_scrollUp]
  unfold ScrollHolds
  by_cases hstart : r.start = 0
  · rw [historySize_scrollUp_top hg hstart, if_neg (by simp [hstart])]
    split_ifs <;> omega
  · rw [historySize_scrollUp_inner hstart]
    split_ifs <;> omega

theorem Sound.of_eq (hg : g.Sound D) {g' : Grid Square} (hraw : g'.raw = g.raw)
    (hlines : g'.lines = g.lines) (hcolumns : g'.columns = g.columns)
    (hmax : g'.maxScrollLimit = g.maxScrollLimit) (hdisplay : g'.displayOffset = g.displayOffset)
    (hcursor : g'.cursor.pos = g.cursor.pos) (hsaved : g'.savedCursor.pos = g.savedCursor.pos) :
    g'.Sound D := by
  obtain ⟨⟨h1, h2, h3, h4, h5⟩, h6, h7, h8, h9, h10⟩ := hg
  rw [historySize_eq] at h4 h10
  refine ⟨⟨?_, ?_, ?_, ?_, ?_⟩, ?_, ?_, ?_, ?_, ?_⟩
  · rwa [hraw]
  · rwa [hraw, hlines]
  · rwa [hraw, hlines]
  · rwa [historySize_eq, hraw, hlines, hmax]
  · rwa [hraw, hcolumns]
  · rwa [hlines]
  · rwa [hcolumns]
  · rwa [hcursor, hlines, hcolumns]
  · rwa [hsaved, hlines, hcolumns]
  · rwa [historySize_eq, hraw, hlines, hdisplay]

/-- The rows of a grid change and nothing else of it. -/
theorem Sound.mapRaw (hg : g.Sound D) {raw : Storage Square} (hlen : raw.len = g.raw.len)
    (hwf : WellFormed { g with raw := raw }) : Sound D { g with raw := raw } := by
  refine ⟨hwf, hg.lines_pos, hg.columns_ge, hg.cursor, hg.savedCursor, ?_⟩
  have h := hg.display
  rw [historySize_eq] at h ⊢
  simpa only [hlen] using h

theorem Sound.modifyRow (hg : g.Sound D) (line : ℤ) {f : Row Square → Row Square}
    (hf : ∀ r, (f r).len = r.len) : (g.modifyRow line f).Sound D :=
  hg.mapRaw rfl (modifyRow_wellFormed hg.wellFormed line hf)

theorem Sound.modifyCell (hg : g.Sound D) (p : Pos) (f : Square → Square) :
    (g.modifyCell p f).Sound D :=
  hg.modifyRow p.row fun r => Row.modify_len r p.col f

theorem Sound.modifyCursorCell (hg : g.Sound D) (f : Square → Square) :
    (g.modifyCursorCell f).Sound D :=
  hg.modifyCell g.cursor.pos f

theorem Sound.setCol (hg : g.Sound D) {col : ℕ} (hcol : col < g.columns) : (g.setCol col).Sound D :=
  ⟨hg.wellFormed.withCursor _, hg.lines_pos, hg.columns_ge,
    ⟨hg.cursor.1, hg.cursor.2.1, hcol⟩, hg.savedCursor, hg.display⟩

theorem Sound.setLine (hg : g.Sound D) {row : ℤ} (hrow0 : 0 ≤ row) (hrow1 : row < g.lines) :
    (g.setLine row).Sound D :=
  ⟨hg.wellFormed.withCursor _, hg.lines_pos, hg.columns_ge, ⟨hrow0, hrow1, hg.cursor.2.2⟩,
    hg.savedCursor, hg.display⟩

theorem Sound.setShouldWrap (hg : g.Sound D) (on : Bool) : (g.setShouldWrap on).Sound D :=
  hg.of_eq rfl rfl rfl rfl rfl rfl rfl

theorem Sound.resetRegion (hg : g.Sound D) (r : Region) : (g.resetRegion r).Sound D :=
  hg.mapRaw (Storage.resetLines_len _ _ _) (resetLines_wellFormed hg.wellFormed _ _)

theorem Sound.scrollUp (hg : g.Sound D) (r : Region) {n : ℕ} (hholds : D → g.ScrollHolds r n) :
    (g.scrollUp r n).Sound D := by
  have hwf := scrollUp_wellFormed hg.wellFormed hg.lines_pos r n
  have hdisplay (hD : D) := (display_scrollUp_iff hg.wellFormed (hg.display hD) r n).mpr (hholds hD)
  rw [scrollUp_eq] at hwf hdisplay ⊢
  exact ⟨hwf, hg.lines_pos, hg.columns_ge, hg.cursor, hg.savedCursor, hdisplay⟩

theorem Sound.scrollDown (hg : g.Sound D) (r : Region) (n : ℕ) : (g.scrollDown r n).Sound D := by
  have hwf := scrollDown_wellFormed hg.wellFormed hg.lines_pos r n
  have hsize := historySize_scrollDown g r n
  rw [scrollDown_eq] at hwf hsize ⊢
  refine ⟨hwf, hg.lines_pos, hg.columns_ge, hg.cursor, hg.savedCursor, fun hD => ?_⟩
  rw [hsize]
  exact hg.display hD

theorem Sound.clearHistory (hg : g.Sound D) : g.clearHistory.Sound D :=
  ⟨clearHistory_wellFormed hg.wellFormed, hg.lines_pos, hg.columns_ge, hg.cursor, hg.savedCursor,
    fun _ => Nat.zero_le _⟩

theorem Sound.updateHistory (hg : g.Sound D) (size : ℕ) : (g.updateHistory size).Sound D := by
  refine ⟨updateHistory_wellFormed hg.wellFormed size, hg.lines_pos, hg.columns_ge, hg.cursor,
    hg.savedCursor, fun hD => ?_⟩
  have := hg.display hD
  rw [historySize_updateHistory]
  show min g.displayOffset size ≤ _
  omega

theorem Sound.clearViewport (hg : g.Sound D) : g.clearViewport.Sound D := by
  have h := hg.scrollUp ⟨0, g.lines⟩
    (n := ((g.clearViewportStop (g.lines * g.columns + 1) ⟨(g.lines : ℤ) - 1, g.columns⟩).row
      + 1).toNat) (fun _ => .inl rfl)
  exact h.mapRaw (Storage.resetLines_len _ _ _) (resetLines_wellFormed h.wellFormed _ _)

theorem Sound.scrollDisplay (hg : g.Sound D) (scroll : Scroll) : (g.scrollDisplay scroll).Sound D := by
  have hwf := hg.wellFormed
  refine ⟨⟨hwf.storage, hwf.visible, hwf.filled, hwf.limit, hwf.width⟩, hg.lines_pos,
    hg.columns_ge, hg.cursor, hg.savedCursor, fun hD => ?_⟩
  have hdisplay := hg.display hD
  have hsize : (g.scrollDisplay scroll).historySize = g.historySize := rfl
  rw [hsize]
  cases scroll with
  | delta count => exact min_le_right _ _
  | pageUp => exact min_le_right _ _
  | pageDown =>
    show g.displayOffset - g.lines ≤ g.historySize
    omega
  | top => exact le_rfl
  | bottom => exact Nat.zero_le _

theorem Sound.reset (hg : g.Sound D) : g.reset.Sound D := by
  have hlines := hg.lines_pos
  have hcolumns := hg.columns_ge
  have hon : Pos.OnScreen g.lines g.columns {} :=
    ⟨le_rfl, by show (0 : ℤ) < g.lines; omega, by show 0 < g.columns; omega⟩
  exact ⟨reset_wellFormed hg.wellFormed, hlines, hcolumns, hon, hon, fun _ => Nat.zero_le _⟩

theorem new_sound {lines columns : ℕ} (hlines : 1 ≤ lines) (hcolumns : 2 ≤ columns)
    (maxScrollLimit : ℕ) : (new lines columns maxScrollLimit : Grid Square).Sound D := by
  have hon : Pos.OnScreen lines columns {} :=
    ⟨le_rfl, by show (0 : ℤ) < lines; omega, by show 0 < columns; omega⟩
  exact ⟨new_wellFormed hlines columns maxScrollLimit, hlines, hcolumns, hon, hon,
    fun _ => Nat.zero_le _⟩

end Grid
end Rio
