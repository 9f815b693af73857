import Rio.Crosswords.OpsSound
import Rio.Kitty.Keyed

/-! What a deletion of graphics reaches: the placements its selector matches, and the images
whose data its upper-case form frees. -/

set_option linter.dupNamespace false

namespace Rio

/-! ### The cells -/

namespace Crosswords
variable {t t' t'' : Crosswords}

/-- The cursor and the first line of the screen are where they were. -/
def StaysPut (t t' : Crosswords) : Prop :=
  t'.pos = t.pos ∧ t'.grid.historySize = t.grid.historySize

theorem StaysPut.trans (h : t.StaysPut t') (h' : t'.StaysPut t'') : t.StaysPut t'' :=
  ⟨h'.1.trans h.1, h'.2.trans h.2⟩

theorem StaysPut.foldl {β : Type} {f : Crosswords → β → Crosswords}
    (hf : ∀ (t : Crosswords) b, t.StaysPut (f t b)) (l : List β) (t : Crosswords) :
    t.StaysPut (l.foldl f t) :=
  List.foldlRecOn l f (motive := fun t' => t.StaysPut t') ⟨rfl, rfl⟩
    fun t' h b _ => h.trans (hf t' b)

theorem staysPut_clearGraphicAt (t : Crosswords) (p : Pos) :
    t.StaysPut (t.mapGrid (·.clearGraphicAt p)) := by
  obtain ⟨f, extrasTable, heq⟩ := Grid.clearGraphicAt_eq t.grid p
  unfold StaysPut pos mapGrid
  dsimp only
  rw [heq]
  exact ⟨rfl, rfl⟩

theorem staysPut_clearGraphicsInRow (t : Crosswords) (row : ℤ) (columns : List ℕ) :
    t.StaysPut
      (t.mapGrid fun g => columns.foldl (fun g col => g.clearGraphicAt ⟨row, col⟩) g) := by
  induction columns generalizing t with
  | nil => exact ⟨rfl, rfl⟩
  | cons col columns ih => exact (staysPut_clearGraphicAt t ⟨row, col⟩).trans (ih _)

theorem staysPut_damageLine (t : Crosswords) (line : ℕ) : t.StaysPut (t.damageLine line) :=
  ⟨rfl, rfl⟩

theorem staysPut_deleteGraphicAtPosition (t : Crosswords) (col : ℕ) (row : ℤ) :
    t.StaysPut (t.deleteGraphicAtPosition col row) := by
  have hcleared := staysPut_clearGraphicAt t ⟨row, col⟩
  unfold deleteGraphicAtPosition
  dsimp only
  split_ifs
  · exact hcleared.trans (staysPut_damageLine _ _)
  · exact hcleared
  · exact ⟨rfl, rfl⟩

theorem staysPut_deleteGraphics (t : Crosswords) (action : Char) (x y : ℕ) :
    t.StaysPut (t.deleteGraphics action x y) := by
  have hrow (t : Crosswords) (row : ℤ) :
      t.StaysPut ((t.mapGrid fun g =>
        (List.range g.columns).foldl (fun g col => g.clearGraphicAt ⟨row, col⟩) g).damageLine
          row.toNat) :=
    (staysPut_clearGraphicsInRow t row (List.range t.grid.columns)).trans
      (staysPut_damageLine _ _)
  unfold deleteGraphics
  split_ifs
  · exact .foldl (fun t line => hrow t line) _ t
  · exact staysPut_deleteGraphicAtPosition t _ _
  · exact staysPut_deleteGraphicAtPosition t _ _
  · exact ⟨rfl, rfl⟩
  · unfold deleteGraphicsInColumn
    split_ifs
    · exact .foldl (fun t line => staysPut_deleteGraphicAtPosition t _ line) _ t
    · exact ⟨rfl, rfl⟩
  · exact ⟨rfl, rfl⟩
  · unfold deleteGraphicsInRow
    split_ifs
    · exact hrow t _
    · exact ⟨rfl, rfl⟩
  · exact ⟨rfl, rfl⟩
  · exact ⟨rfl, rfl⟩

end Crosswords

namespace Kitty

/-! ### What a deletion selects -/

namespace DeleteRequest

/-- The selector, as a letter of either case. -/
abbrev selector (d : DeleteRequest) : Char := Char.ofNat d.action.toNat

/-- The selector is one of all placements. -/
def IsAll (d : DeleteRequest) : Prop := d.selector = 'a' ∨ d.selector = 'A'

/-- The selector names images: by an id, by a number, or by a range of ids. -/
def Naming (d : DeleteRequest) : Prop := d.selector ∈ ['i', 'I', 'n', 'N', 'r', 'R']

/-- The selector finds placements where they are: at the cursor, in a cell, a column or a row,
or at a depth. -/
def Positional (d : DeleteRequest) : Prop :=
  d.selector ∈ ['c', 'C', 'p', 'P', 'x', 'X', 'y', 'Y', 'z', 'Z', 'q', 'Q']

instance (d : DeleteRequest) : Decidable d.IsAll := inferInstanceAs (Decidable (_ ∨ _))

instance (d : DeleteRequest) : Decidable d.Naming := inferInstanceAs (Decidable (_ ∈ _))

instance (d : DeleteRequest) : Decidable d.Positional := inferInstanceAs (Decidable (_ ∈ _))

def number (d : DeleteRequest) : ℕ := if 0 < d.imageNumber then d.imageNumber else d.imageId

/-- The images that are named. -/
def names (k : KittyScreenState) (d : DeleteRequest) (id : ℕ) : Bool :=
  if d.selector = 'i' ∨ d.selector = 'I' then id = d.imageId
  else if d.selector = 'n' ∨ d.selector = 'N' then k.kittyImageNumbers.lookup d.number = some id
  else if d.selector = 'r' ∨ d.selector = 'R' then
    decide (0 < d.x ∧ d.x ≤ d.y) && (d.x ≤ id && id ≤ d.y)
  else false

/-- The placements that are named by their image and, but for a range, their own id. -/
def namesPlacement (k : KittyScreenState) (d : DeleteRequest) (key : ℕ × ℕ) : Bool :=
  d.names k key.1 &&
    (d.selector = 'r' || d.selector = 'R' || d.placementId = 0 || key.2 = d.placementId)

/-- The placements that are asked for, with the line of the screen that the row of the request
stands for. -/
def selects (k : KittyScreenState) (d : DeleteRequest) (cursor : Pos) (historySize : ℕ) (line : ℤ)
    (key : ℕ × ℕ) (p : KittyPlacement) : Bool :=
  if d.selector = 'i' ∨ d.selector = 'I' then d.namesPlacement k key
  else if d.selector = 'c' ∨ d.selector = 'C' then
    p.inColumn cursor.col && p.inRow (historySize + cursor.row)
  else if d.selector = 'p' ∨ d.selector = 'P' then
    decide (0 < d.x ∧ 0 < d.y) && (p.inColumn (d.x - 1) && p.inRow (historySize + line))
  else if d.selector = 'x' ∨ d.selector = 'X' then decide (0 < d.x) && p.inColumn (d.x - 1)
  else if d.selector = 'y' ∨ d.selector = 'Y' then
    decide (0 < d.y) && p.inRow (historySize + line)
  else if d.selector = 'z' ∨ d.selector = 'Z' then p.zIndex = d.zIndex
  else if d.selector = 'n' ∨ d.selector = 'N' then d.namesPlacement k key
  else if d.selector = 'q' ∨ d.selector = 'Q' then
    decide (0 < d.x ∧ 0 < d.y) &&
      (p.zIndex == d.zIndex && p.inColumn (d.x - 1) && p.inRow (historySize + line))
  else if d.selector = 'r' ∨ d.selector = 'R' then d.namesPlacement k key
  else false

end DeleteRequest

/-! ### What the code removes -/

/-- The selected placements are removed, and no others. -/
structure Graphics.RemovesSelected (g : Graphics) (selected : ℕ × ℕ → KittyPlacement → Bool)
    (g' : Graphics) : Prop where
  placements : ∀ key p, g'.screen.kittyPlacements.lookup key = some p ↔
    g.screen.kittyPlacements.lookup key = some p ∧ selected key p = false
  virtual : g'.screen.kittyVirtualPlacements = g.screen.kittyVirtualPlacements

namespace Graphics.RemovesSelected
variable {g g' : Graphics} {selected : ℕ × ℕ → KittyPlacement → Bool}

theorem none (h : ∀ key p, selected key p = false) : g.RemovesSelected selected g :=
  ⟨fun key p => (and_iff_left (h key p)).symm, rfl⟩

theorem retain {keep : ℕ × ℕ → KittyPlacement → Bool} (h : ∀ key p, keep key p = !selected key p) :
    g.RemovesSelected selected { g with screen := g.screen.retainPlacements keep } := by
  refine ⟨fun key p => ?_, rfl⟩
  refine Table.lookup_retain_eq_some.trans (and_congr_right' ?_)
  rw [h, Bool.not_eq_true']

theorem deletePlacementsOf {imageId placementId : ℕ}
    (h : ∀ key p, selected key p = (decide (key.1 = imageId) &&
      (decide (placementId = 0) || decide (key.2 = placementId)))) :
    g.RemovesSelected selected
      { g with screen := Terminal.deletePlacementsOf g.screen imageId placementId } := by
  unfold Terminal.deletePlacementsOf
  by_cases hid : placementId = 0
  · rw [if_neg (not_not.mpr hid)]
    refine retain fun key p => ?_
    rw [h, decide_eq_true hid, Bool.true_or, Bool.and_true, decide_not]
  · rw [if_pos hid]
    refine ⟨fun key p => ?_, rfl⟩
    dsimp only
    rw [Table.lookup_erase_of, h, decide_eq_false hid, Bool.false_or, ← Bool.decide_and,
      decide_eq_false_iff_not, ← Prod.mk.injEq]
    by_cases hkey : key = (imageId, placementId)
    · rw [if_pos hkey]
      exact ⟨nofun, fun hp => absurd hkey hp.2⟩
    · rw [if_neg hkey]
      exact (and_iff_left hkey).symm

theorem ite {c : Prop} [Decidable c] {x y : Graphics}
    {selected' : ℕ × ℕ → KittyPlacement → Bool} (hx : c → g.RemovesSelected selected x)
    (hy : ¬c → g.RemovesSelected selected' y) :
    g.RemovesSelected (fun key p => if c then selected key p else selected' key p)
      (if c then x else y) := by
  by_cases hc : c
  · simpa only [if_pos hc] using hx hc
  · simpa only [if_neg hc] using hy hc

/-- A position that has to be given. -/
theorem given {c : Prop} [Decidable c] (h : g.RemovesSelected selected g') :
    g.RemovesSelected (fun key p => decide c && selected key p) (if c then g' else g) := by
  by_cases hc : c
  · simpa only [if_pos hc, decide_eq_true hc, Bool.true_and] using h
  · rw [if_neg hc]
    exact none fun key p => by rw [decide_eq_false hc, Bool.false_and]

theorem cleanupIf (h : g.RemovesSelected selected g') (upper : Bool) (alive : ℕ → Bool) :
    g.RemovesSelected selected (if upper then g'.cleanupUnusedKittyImages alive else g') := by
  cases upper with
  | false => exact h
  | true => exact ⟨h.placements, h.virtual⟩

theorem deleteIf (h : g.RemovesSelected selected g') (upper : Bool) (predicate : ℕ → Bool) :
    g.RemovesSelected selected (if upper then g'.deleteKittyImages predicate else g') := by
  cases upper with
  | false => exact h
  | true => exact ⟨h.placements, h.virtual⟩

end Graphics.RemovesSelected

namespace Terminal

section
variable {d : DeleteRequest}

/-- The placements of a deletion that is not one of all; the row is read as a signed number. -/
theorem deleteImages_removesSelected (g : Graphics) (hall : ¬d.IsAll) (cursor : Pos)
    (historySize : ℕ) (alive : ℕ → Bool) :
    g.RemovesSelected (d.selects g.screen cursor historySize (asI32 (d.y - 1)))
      (deleteImages g d cursor historySize alive) := by
  have hnamed {k : KittyScreenState} {key : ℕ × ℕ} (image : ℕ → Bool)
      (hnames : d.names k key.1 = image key.1) (hr : d.selector ≠ 'r' ∧ d.selector ≠ 'R') :
      d.namesPlacement k key =
        (image key.1 && (decide (d.placementId = 0) || decide (key.2 = d.placementId))) := by
    unfold DeleteRequest.namesPlacement
    rw [hnames, decide_eq_false hr.1, decide_eq_false hr.2]
    rfl
  unfold deleteImages DeleteRequest.selects
  dsimp only
  refine (congrArg (g.RemovesSelected _) (if_neg hall)).mpr ?_
  with_reducible refine .ite (fun hi => ?_) fun _ => ?_
  · refine .deleteIf (.deletePlacementsOf fun key _ => ?_) _ _
    refine hnamed (fun id => decide (id = d.imageId)) (if_pos hi) ?_
    obtain hi | hi := hi <;> rw [hi] <;> decide
  -- the placements at the cursor, in a cell, in a column, in a row, and at a depth
  with_reducible refine .ite (fun _ => ?_) fun _ => ?_
  · exact .cleanupIf (.retain fun _ _ => rfl) _ _
  with_reducible refine .ite (fun _ => ?_) fun _ => ?_
  · exact .cleanupIf (.given (.retain fun _ _ => rfl)) _ _
  with_reducible refine .ite (fun _ => ?_) fun _ => ?_
  · exact .cleanupIf (.given (.retain fun _ _ => rfl)) _ _
  with_reducible refine .ite (fun _ => ?_) fun _ => ?_
  · exact .cleanupIf (.given (.retain fun _ _ => rfl)) _ _
  with_reducible refine .ite (fun _ => ?_) fun _ => ?_
  · exact .cleanupIf (.retain fun _ _ => decide_not) _ _
  with_reducible refine .ite (fun hn => ?_) fun _ => ?_
  · have hi : ¬(d.selector = 'i' ∨ d.selector = 'I') := by
      obtain hn | hn := hn <;> rw [hn] <;> decide
    have hr : d.selector ≠ 'r' ∧ d.selector ≠ 'R' := by
      obtain hn | hn := hn <;> rw [hn] <;> decide
    have hnames (id : ℕ) : d.names g.screen id =
        decide (g.screen.kittyImageNumbers.lookup d.number = some id) :=
      (if_neg hi).trans (if_pos hn)
    cases hfound : g.screen.kittyImageNumbers.lookup
      (if 0 < d.imageNumber then d.imageNumber else d.imageId) with
    | none =>
      have hnumber : g.screen.kittyImageNumbers.lookup d.number = none := hfound
      refine .none fun key _ => ?_
      unfold DeleteRequest.namesPlacement
      rw [hnames, hnumber]
      rfl
    | some imageId =>
      have hnumber : g.screen.kittyImageNumbers.lookup d.number = some imageId := hfound
      refine .deleteIf (.deletePlacementsOf fun key _ => ?_) _ _
      refine hnamed (fun id => decide (id = imageId)) ?_ hr
      rw [hnames, hnumber, decide_eq_decide, Option.some_inj, eq_comm]
  with_reducible refine .ite (fun _ => ?_) fun _ => ?_
  · exact .cleanupIf (.given (.retain fun _ _ => rfl)) _ _
  with_reducible refine .ite (fun hr => ?_) fun _ => ?_
  · have hnames (key : ℕ × ℕ) : d.namesPlacement g.screen key =
        (decide (0 < d.x ∧ d.x ≤ d.y) && (decide (d.x ≤ key.1) && decide (key.1 ≤ d.y))) := by
      unfold DeleteRequest.namesPlacement DeleteRequest.names
      obtain hr | hr := hr <;> rw [hr] <;> exact Bool.and_true _
    simp only [hnames]
    refine .given (.deleteIf (.retain fun key _ => ?_) _ _)
    simp only [Bool.not_and, ← decide_not, not_le]
  · exact .none fun _ _ => rfl

theorem mem_placementIds {k : KittyScreenState} {id : ℕ} :
    id ∈ k.placementIds ↔ ∃ key p, k.kittyPlacements.lookup key = some p ∧ p.imageId = id := by
  unfold KittyScreenState.placementIds
  rw [List.mem_map]
  constructor
  · rintro ⟨e, he, hid⟩
    exact ⟨e.1, e.2, Table.mem_entries_iff.mp he, hid⟩
  · rintro ⟨key, p, hp, hid⟩
    exact ⟨⟨key, p⟩, Table.mem_entries_iff.mpr hp, hid⟩

theorem not_positional (h : d.Naming) : ¬d.Positional := by
  unfold DeleteRequest.Naming at h
  unfold DeleteRequest.Positional
  generalize d.selector = c at h
  simp only [List.mem_cons, List.not_mem_nil, or_false] at h
  obtain rfl | rfl | rfl | rfl | rfl | rfl := h <;> decide

theorem selectsImage_named (h : d.Naming) (g : Graphics) (cursor : Pos) (historySize : ℕ)
    (alive : ℕ → Bool) (id : ℕ) :
    selectsImage g d cursor historySize alive id = d.names g.screen id := by
  have hall : ¬(d.selector = 'a' ∨ d.selector = 'A') := by
    rintro (ha | ha) <;> exact absurd h (by unfold DeleteRequest.Naming; rw [ha]; decide)
  have hplaces : d.selector ∉ ['c', 'C', 'p', 'P', 'x', 'X', 'y', 'Y', 'z', 'Z', 'q', 'Q'] :=
    not_positional h
  unfold selectsImage DeleteRequest.names
  dsimp only
  rw [if_neg hall, if_neg hplaces]
  rfl

/-- A selector that is none of these selects nothing. -/
theorem selects_unknown (hall : ¬d.IsAll) (hnaming : ¬d.Naming) (hplaces : ¬d.Positional) :
    (∀ k cursor historySize line key p, d.selects k cursor historySize line key p = false) ∧
      ∀ g cursor historySize alive id, selectsImage g d cursor historySize alive id = false := by
  have hnamed : d.selector ∉ ['i', 'I', 'n', 'N', 'r', 'R'] := hnaming
  have hplaced : d.selector ∉ ['c', 'C', 'p', 'P', 'x', 'X', 'y', 'Y', 'z', 'Z', 'q', 'Q'] :=
    hplaces
  have hsome : ¬(d.selector = 'a' ∨ d.selector = 'A') := hall
  constructor
  · intro k cursor historySize line key p
    simp only [List.mem_cons, List.not_mem_nil, or_false, not_or] at hnamed hplaced
    unfold DeleteRequest.selects
    simp only [hnamed, hplaced, or_false, if_false]
  · intro g cursor historySize alive id
    unfold selectsImage
    dsimp only
    rw [if_neg hsome, if_neg hplaced]
    simp only [List.mem_cons, List.not_mem_nil, or_false, not_or] at hnamed
    simp only [hnamed, or_false, if_false]

/-- The clean-up takes the images that no placement that stays shows, and no atlas graphic in a
cell. -/
theorem selectsImage_found (h : d.Positional) {g : Graphics} (hkeyed : g.screen.Keyed)
    (cursor : Pos) (historySize : ℕ) (alive : ℕ → Bool) (id : ℕ) :
    selectsImage g d cursor historySize alive id = true ↔
      (∀ texture ∈ g.placedTextures, alive texture = true → texture % 2 ^ 32 ≠ id) ∧
        ∀ key p, g.screen.kittyPlacements.lookup key = some p → key.1 = id →
          d.selects g.screen cursor historySize (asI32 (d.y - 1)) key p = true := by
  have hothers : d.selector ∉ ['a', 'A', 'i', 'I', 'n', 'N', 'r', 'R'] := by
    intro hother
    have hboth : d.selector ∈ ['c', 'C', 'p', 'P', 'x', 'X', 'y', 'Y', 'z', 'Z', 'q', 'Q'] := h
    generalize d.selector = c at hother hboth
    simp only [List.mem_cons, List.not_mem_nil, or_false] at hother
    obtain rfl | rfl | rfl | rfl | rfl | rfl | rfl | rfl := hother <;>
      exact absurd hboth (by decide)
  simp only [List.mem_cons, List.not_mem_nil, or_false, not_or] at hothers
  obtain ⟨ha, hA, hi, hI, hn, hN, hr, hR⟩ := hothers
  have hkept := deleteImages_removesSelected g (d := { d with deleteData := false })
    (fun hall => hall.elim ha hA) cursor historySize alive
  have hselects : selectsImage g d cursor historySize alive id =
      !decide (id ∈ (g.placedTextures.filter alive ++
        (deleteImages g { d with deleteData := false } cursor historySize
          alive).screen.placementIds).map (· % 2 ^ 32)) := by
    unfold selectsImage
    dsimp only
    rw [if_neg (not_or.mpr ⟨ha, hA⟩), if_neg (not_or.mpr ⟨hi, hI⟩), if_neg (not_or.mpr ⟨hn, hN⟩),
      if_neg (not_or.mpr ⟨hr, hR⟩)]
    exact if_pos h
  rw [hselects, Bool.not_eq_true', decide_eq_false_iff_not, List.map_append, List.mem_append,
    not_or]
  refine and_congr ?_ ?_
  · constructor
    · intro hnone texture hplaced halive hid
      exact hnone (List.mem_map.mpr ⟨texture, List.mem_filter.mpr ⟨hplaced, halive⟩, hid⟩)
    · intro hnone hmem
      obtain ⟨texture, htexture, hid⟩ := List.mem_map.mp hmem
      obtain ⟨hplaced, halive⟩ := List.mem_filter.mp htexture
      exact hnone texture hplaced halive hid
  · constructor
    · intro hnone key p hp hid
      obtain ⟨hkey, hlt⟩ := hkeyed.placements key p hp
      refine Bool.eq_true_of_not_eq_false fun hstays => hnone (List.mem_map.mpr ⟨p.imageId, ?_, ?_⟩)
      · exact mem_placementIds.mpr ⟨key, p, (hkept.placements key p).mpr ⟨hp, hstays⟩, rfl⟩
      · rw [Nat.mod_eq_of_lt hlt, ← hid, hkey]
    · intro hall hmem
      obtain ⟨imageId, himage, hid⟩ := List.mem_map.mp hmem
      obtain ⟨key, p, hp, rfl⟩ := mem_placementIds.mp himage
      obtain ⟨hstored, hstays⟩ := (hkept.placements key p).mp hp
      obtain ⟨hkey, hlt⟩ := hkeyed.placements key p hstored
      rw [Nat.mod_eq_of_lt hlt] at hid
      have hselected := hall key p hstored (by rw [hkey]; exact hid)
      exact Bool.false_ne_true (hstays.symm.trans hselected)

end

/-! ### What a deletion should remove -/

variable (t : Terminal) (d : DeleteRequest)

/-- The placements that the request asks for. -/
def selects (key : ℕ × ℕ) (p : KittyPlacement) : Bool :=
  d.selects t.graphics.screen t.crosswords.pos t.crosswords.grid.historySize (d.y - 1 : ℕ) key p

/-- The terminal once the cells are cleared. -/
def cleared : Terminal :=
  { t with crosswords := t.crosswords.deleteGraphics d.selector d.x d.y }

/-- Every placement of an image on top of the cells is removed. -/
def AllSelected (id : ℕ) : Prop :=
  ∀ key p, t.graphics.screen.kittyPlacements.lookup key = some p → key.1 = id →
    t.selects d key p = true

def SomeSelected (id : ℕ) : Prop :=
  ∃ key p, t.graphics.screen.kittyPlacements.lookup key = some p ∧ key.1 = id ∧
    t.selects d key p = true

def NoVirtual (id : ℕ) : Prop :=
  ∀ key v, t.graphics.screen.kittyVirtualPlacements.lookup key = some v → key.1 ≠ id

/-- The upper-case form frees an image that the selector names, or that had a placement which
it removes, once no placement of it is left. -/
structure Frees (id : ℕ) : Prop where
  upper : d.deleteData = true
  reached : d.names t.graphics.screen id = true ∨ t.SomeSelected d id
  displayed : t.AllSelected d id
  virtual : ∀ key v, t.graphics.screen.kittyVirtualPlacements.lookup key = some v → key.1 = id →
    d.namesPlacement t.graphics.screen key = true

/-- A deletion removes the placements of the active screen that it selects, the virtual ones by
their ids, frees what it should, and leaves everything else alone. -/
structure DeletesInScope : Prop where
  placements : ∀ key p, (t.deleteGraphics d).graphics.screen.kittyPlacements.lookup key = some p ↔
    t.graphics.screen.kittyPlacements.lookup key = some p ∧ t.selects d key p = false
  virtual : ∀ key v,
    (t.deleteGraphics d).graphics.screen.kittyVirtualPlacements.lookup key = some v ↔
      t.graphics.screen.kittyVirtualPlacements.lookup key = some v ∧
        d.namesPlacement t.graphics.screen key = false
  inactive : (t.deleteGraphics d).graphics.kittyInactiveScreen = t.graphics.kittyInactiveScreen
  freed : ∀ id, t.Frees d id →
    (t.deleteGraphics d).graphics.screen.kittyImages.lookup id = none
  kept : ∀ id, ¬t.Frees d id → (t.deleteGraphics d).graphics.screen.kittyImages.lookup id =
    t.graphics.screen.kittyImages.lookup id

/-- When a deletion does what it should: its row is the same as a signed number, as far as the
placements can tell; no virtual placement is named; an image that is named and stored keeps no
placement; and an image none of whose placements stay is in a cell under the same number exactly
if it had no placement to remove or has a virtual one. -/
structure ReachesItsScope : Prop where
  row : ∀ key p, t.graphics.screen.kittyPlacements.lookup key = some p →
    d.selects t.graphics.screen t.crosswords.pos t.crosswords.grid.historySize (asI32 (d.y - 1))
      key p = t.selects d key p
  virtual : ∀ key v, t.graphics.screen.kittyVirtualPlacements.lookup key = some v →
    d.namesPlacement t.graphics.screen key = false
  named : d.deleteData = true → ∀ id ∈ t.graphics.screen.kittyImages,
    d.names t.graphics.screen id = true → t.AllSelected d id ∧ t.NoVirtual id
  found : d.deleteData = true → d.Positional → ∀ id ∈ t.graphics.screen.kittyImages,
    t.AllSelected d id →
      ((∀ texture ∈ t.graphics.placedTextures, (t.cleared d).textureAlive texture = true →
        texture % 2 ^ 32 ≠ id) ↔ t.SomeSelected d id ∧ t.NoVirtual id)

variable {t d}

/-! ### When a deletion does what it should -/

theorem deleteGraphics_graphics (t : Terminal) (d : DeleteRequest) :
    (t.deleteGraphics d).graphics =
      (deleteImages t.graphics d t.crosswords.pos t.crosswords.grid.historySize
        (t.cleared d).textureAlive).sendGraphicsUpdates := by
  obtain ⟨hpos, hhistory⟩ := t.crosswords.staysPut_deleteGraphics d.selector d.x d.y
  change (deleteImages t.graphics d (t.crosswords.deleteGraphics d.selector d.x d.y).pos
    (t.crosswords.deleteGraphics d.selector d.x d.y).grid.historySize
    (t.cleared d).textureAlive).sendGraphicsUpdates = _
  rw [hpos, hhistory]

/-- The images that the code deletes. -/
def losesImage (t : Terminal) (d : DeleteRequest) (id : ℕ) : Bool :=
  d.deleteData && selectsImage t.graphics d t.crosswords.pos t.crosswords.grid.historySize
    (t.cleared d).textureAlive id

theorem deleteGraphics_lookup (t : Terminal) (d : DeleteRequest) (id : ℕ) :
    (t.deleteGraphics d).graphics.screen.kittyImages.lookup id =
      if t.losesImage d id = true then none else t.graphics.screen.kittyImages.lookup id := by
  have hdeletes := deleteImages_deletesOnly t.graphics d t.crosswords.pos
    t.crosswords.grid.historySize (t.cleared d).textureAlive
  rw [deleteGraphics_graphics]
  refine (congrArg (AList.lookup id) hdeletes.images).trans ?_
  rw [Table.lookup_retain]
  unfold losesImage
  generalize (d.deleteData && selectsImage t.graphics d t.crosswords.pos
    t.crosswords.grid.historySize (t.cleared d).textureAlive id) = loses
  cases loses with
  | true => exact Option.filter_eq_none_iff.mpr fun _ _ => Bool.false_ne_true
  | false => cases t.graphics.screen.kittyImages.lookup id <;> rfl

/-- The images are as they should be if those lost are the ones to free. -/
theorem images_iff : ((∀ id, t.Frees d id →
      (t.deleteGraphics d).graphics.screen.kittyImages.lookup id = none) ∧
    ∀ id, ¬t.Frees d id → (t.deleteGraphics d).graphics.screen.kittyImages.lookup id =
      t.graphics.screen.kittyImages.lookup id) ↔
    ∀ id ∈ t.graphics.screen.kittyImages, (t.losesImage d id = true ↔ t.Frees d id) := by
  constructor
  · rintro ⟨hfreed, hkept⟩ id hid
    obtain ⟨image, himage⟩ := Option.isSome_iff_exists.mp (AList.lookup_isSome.mpr hid)
    constructor
    · intro hloses
      by_contra hfrees
      have hlookup := hkept id hfrees
      rw [deleteGraphics_lookup, if_pos hloses, himage] at hlookup
      cases hlookup
    · intro hfrees
      by_contra hloses
      have hlookup := hfreed id hfrees
      rw [deleteGraphics_lookup, if_neg hloses, himage] at hlookup
      cases hlookup
  · intro h
    have hnone {id : ℕ} (hid : id ∉ t.graphics.screen.kittyImages) :
        t.graphics.screen.kittyImages.lookup id = none := AList.lookup_eq_none.mpr hid
    refine ⟨fun id hfrees => ?_, fun id hfrees => ?_⟩
    · rw [deleteGraphics_lookup]
      by_cases hid : id ∈ t.graphics.screen.kittyImages
      · rw [if_pos ((h id hid).mpr hfrees)]
      · rw [hnone hid, ite_self]
    · rw [deleteGraphics_lookup]
      by_cases hid : id ∈ t.graphics.screen.kittyImages
      · rw [if_neg (mt (h id hid).mp hfrees)]
      · rw [hnone hid, ite_self]

/-- A selected placement of a request that names images is one of a named image. -/
theorem names_of_selects (h : d.Naming) {key : ℕ × ℕ} {p : KittyPlacement}
    (hselected : t.selects d key p = true) : d.names t.graphics.screen key.1 = true := by
  have hnamed : t.selects d key p = d.namesPlacement t.graphics.screen key := by
    unfold selects DeleteRequest.selects
    have hboth : d.selector ∈ ['i', 'I', 'n', 'N', 'r', 'R'] := h
    generalize d.selector = c at hboth
    simp only [List.mem_cons, List.not_mem_nil, or_false] at hboth
    obtain rfl | rfl | rfl | rfl | rfl | rfl := hboth <;> rfl
  rw [hnamed] at hselected
  exact (Bool.and_eq_true_iff.mp hselected).1

/-- A request that does not name images names none. -/
theorem names_eq_false (h : ¬d.Naming) (k : KittyScreenState) (id : ℕ) :
    d.names k id = false := by
  have hother : d.selector ∉ ['i', 'I', 'n', 'N', 'r', 'R'] := h
  simp only [List.mem_cons, List.not_mem_nil, or_false, not_or] at hother
  obtain ⟨hi, hI, hn, hN, hr, hR⟩ := hother
  unfold DeleteRequest.names
  rw [if_neg (not_or.mpr ⟨hi, hI⟩), if_neg (not_or.mpr ⟨hn, hN⟩), if_neg (not_or.mpr ⟨hr, hR⟩)]

/-- The code frees the images that it should. -/
theorem losesImage_iff (hkeyed : t.graphics.screen.Keyed) (hall : ¬d.IsAll)
    (hrow : ∀ key p, t.graphics.screen.kittyPlacements.lookup key = some p →
      d.selects t.graphics.screen t.crosswords.pos t.crosswords.grid.historySize
        (asI32 (d.y - 1)) key p = t.selects d key p)
    (hvirtual : ∀ key v, t.graphics.screen.kittyVirtualPlacements.lookup key = some v →
      d.namesPlacement t.graphics.screen key = false) :
    (∀ id ∈ t.graphics.screen.kittyImages, (t.losesImage d id = true ↔ t.Frees d id)) ↔
      (d.deleteData = true → ∀ id ∈ t.graphics.screen.kittyImages,
        d.names t.graphics.screen id = true → t.AllSelected d id ∧ t.NoVirtual id) ∧
      (d.deleteData = true → d.Positional → ∀ id ∈ t.graphics.screen.kittyImages,
        t.AllSelected d id →
          ((∀ texture ∈ t.graphics.placedTextures, (t.cleared d).textureAlive texture = true →
            texture % 2 ^ 32 ≠ id) ↔ t.SomeSelected d id ∧ t.NoVirtual id)) := by
  -- no virtual placement is removed, so one that is there stays
  have hfrees (id : ℕ) : t.Frees d id ↔ d.deleteData = true ∧
      (d.names t.graphics.screen id = true ∨ t.SomeSelected d id) ∧ t.AllSelected d id ∧
        t.NoVirtual id := by
    constructor
    · rintro ⟨hupper, hreached, hdisplayed, hnone⟩
      refine ⟨hupper, hreached, hdisplayed, fun key v hv hid => ?_⟩
      exact Bool.false_ne_true ((hvirtual key v hv).symm.trans (hnone key v hv hid))
    · rintro ⟨hupper, hreached, hdisplayed, hnone⟩
      exact ⟨hupper, hreached, hdisplayed, fun key v hv hid => absurd hid (hnone key v hv)⟩
  have hloses (id : ℕ) : t.losesImage d id = true ↔ d.deleteData = true ∧
      selectsImage t.graphics d t.crosswords.pos t.crosswords.grid.historySize
        (t.cleared d).textureAlive id = true := Bool.and_eq_true_iff
  simp only [hfrees, hloses]
  by_cases hupper : d.deleteData = true
  swap
  · exact ⟨fun _ => ⟨fun h => absurd h hupper, fun h => absurd h hupper⟩,
      fun _ id _ => ⟨fun h => absurd h.1 hupper, fun h => absurd h.1 hupper⟩⟩
  simp only [hupper, true_and, forall_const]
  by_cases hnaming : d.Naming
  · have hplaces : ¬d.Positional := not_positional hnaming
    simp only [selectsImage_named hnaming, hplaces, false_implies, and_true]
    refine forall₂_congr fun id _ => ⟨fun h hnames => (h.mp hnames).2, fun h => ⟨fun hnames =>
      ⟨.inl hnames, h hnames⟩, ?_⟩⟩
    rintro ⟨hnames | ⟨key, p, hp, hid, hselected⟩, -⟩
    · exact hnames
    · rw [← hid]
      exact names_of_selects hnaming hselected
  simp only [names_eq_false hnaming, Bool.false_eq_true, false_or, false_implies, implies_true,
    true_and]
  by_cases hplaces : d.Positional
  · have hselects (id : ℕ) : (∀ key p, t.graphics.screen.kittyPlacements.lookup key = some p →
        key.1 = id → d.selects t.graphics.screen t.crosswords.pos t.crosswords.grid.historySize
          (asI32 (d.y - 1)) key p = true) ↔ t.AllSelected d id :=
      forall₄_congr fun key p hp _ => by rw [hrow key p hp]
    simp only [selectsImage_found hplaces hkeyed, hselects, hplaces, true_implies]
    refine forall₂_congr fun id _ => ?_
    tauto
  · obtain ⟨hselects, himages⟩ := selects_unknown hall hnaming hplaces
    simp only [himages, hplaces, false_implies, iff_true, Bool.false_eq_true, false_iff]
    rintro id - ⟨⟨key, p, -, -, hselected⟩, -⟩
    exact Bool.false_ne_true ((hselects _ _ _ _ key p).symm.trans hselected)

/-- A terminal of one cell with two images, of which the first has two placements at different
depths. -/
def twoPlacements : Terminal :=
  { Terminal.new 1 1 0 with
    graphics :=
      { screen :=
          { kittyImages := ((∅ : Table ℕ StoredImage).insert 1 ⟨Graphics.onePixel 1, 0⟩).insert 2
              ⟨Graphics.onePixel 2, 0⟩
            kittyPlacements := ((∅ : Table (ℕ × ℕ) KittyPlacement).insert (1, 1)
              ⟨1, 1, 0, 0, 0, 0, 0, 0, 1, 1, 1, 1, 0, 0, 0, 0⟩).insert (1, 2)
              ⟨1, 2, 0, 0, 0, 0, 0, 0, 1, 1, 1, 1, 0, 0, 5, 0⟩ } } }

/-- Delete the placements at depth five, with the data of images. -/
def deleteDepthFive : DeleteRequest := ⟨0x7A, 0, 0, 0, 0, 0, 5, true⟩

/-- Delete the first placement of the first image, with the data. -/
def deleteFirstPlacement : DeleteRequest := ⟨0x69, 1, 0, 1, 0, 0, 0, true⟩

/-- The image that was never placed loses its data, and so does one with a placement left. -/
theorem deletes_outOfScope : ¬twoPlacements.DeletesInScope deleteDepthFive ∧
    ¬twoPlacements.DeletesInScope deleteFirstPlacement := by
  constructor
  · intro h
    have hkept := h.kept 2 ?_
    · rw [deleteGraphics_lookup, if_pos (by decide)] at hkept
      cases hkept
    · intro hfrees
      obtain hnamed | ⟨key, p, hp, hid, -⟩ := hfrees.reached
      · exact absurd hnamed (by decide)
      · obtain ⟨imageId, placementId⟩ := key
        cases hid
        change (AList.insert _ _ (AList.insert _ _ ∅) : Table (ℕ × ℕ) KittyPlacement).lookup _ = _
          at hp
        rw [Table.lookup_insert_of, if_neg (by simp), Table.lookup_insert_of,
          if_neg (by simp)] at hp
        cases hp
  · intro h
    have hkept := h.kept 1 fun hfrees => ?_
    · rw [deleteGraphics_lookup, if_pos (by decide)] at hkept
      cases hkept
    · exact absurd (hfrees.displayed (1, 2) _ rfl rfl) (by decide)

/-- A deletion of some placements does what it should exactly when its row, the virtual
placements, what is left of the named images, and what is not in view allow it. -/
theorem deletesInScope_iff (hkeyed : t.graphics.screen.Keyed) (hall : ¬d.IsAll) :
    t.DeletesInScope d ↔ t.ReachesItsScope d := by
  have hremoved := deleteImages_removesSelected t.graphics hall t.crosswords.pos
    t.crosswords.grid.historySize (t.cleared d).textureAlive
  have hinactive := (deleteImages_deletesOnly t.graphics d t.crosswords.pos
    t.crosswords.grid.historySize (t.cleared d).textureAlive).inactive
  have hplacements (key : ℕ × ℕ) (p : KittyPlacement) :
      (t.deleteGraphics d).graphics.screen.kittyPlacements.lookup key = some p ↔
        t.graphics.screen.kittyPlacements.lookup key = some p ∧
          d.selects t.graphics.screen t.crosswords.pos t.crosswords.grid.historySize
            (asI32 (d.y - 1)) key p = false := by
    rw [deleteGraphics_graphics]
    exact hremoved.placements key p
  have hvirtual : (t.deleteGraphics d).graphics.screen.kittyVirtualPlacements =
      t.graphics.screen.kittyVirtualPlacements := by
    rw [deleteGraphics_graphics]
    exact hremoved.virtual
  constructor
  · intro h
    have hrow (key : ℕ × ℕ) (p : KittyPlacement)
        (hp : t.graphics.screen.kittyPlacements.lookup key = some p) :
        d.selects t.graphics.screen t.crosswords.pos t.crosswords.grid.historySize
          (asI32 (d.y - 1)) key p = t.selects d key p := by
      have hboth := (hplacements key p).symm.trans (h.placements key p)
      simp only [hp, true_and] at hboth
      exact Bool.eq_iff_iff.mpr (by rw [← Bool.not_eq_false, hboth, Bool.not_eq_false])
    have hnone (key : ℕ × ℕ) (v : VirtualPlacement)
        (hv : t.graphics.screen.kittyVirtualPlacements.lookup key = some v) :
        d.namesPlacement t.graphics.screen key = false :=
      ((h.virtual key v).mp (hvirtual ▸ hv)).2
    obtain ⟨hnamed, hfound⟩ := (losesImage_iff hkeyed hall hrow hnone).mp
      (images_iff.mp ⟨h.freed, h.kept⟩)
    exact ⟨hrow, hnone, hnamed, hfound⟩
  · intro h
    obtain ⟨hfreed, hkept⟩ := images_iff.mpr
      ((losesImage_iff hkeyed hall h.row h.virtual).mpr ⟨h.named, h.found⟩)
    refine ⟨fun key p => ?_, fun key v => ?_, ?_, hfreed, hkept⟩
    · rw [hplacements]
      exact and_congr_right fun hp => by rw [h.row key p hp]
    · rw [hvirtual]
      exact (and_iff_left_of_imp (h.virtual key v)).symm
    · rw [deleteGraphics_graphics]
      exact hinactive

theorem deletesInScope_iff_first : twoPlacements.graphics.screen.Keyed ∧
    (twoPlacements.DeletesInScope deleteFirstPlacement ↔
      twoPlacements.ReachesItsScope deleteFirstPlacement) := by
  have hkeyed : twoPlacements.graphics.screen.Keyed := by
    refine ⟨fun id hid => ?_, fun key p hp => ?_⟩
    · change id ∈ (AList.insert _ _ (AList.insert _ _ ∅) : Table ℕ StoredImage) at hid
      rw [AList.mem_insert, AList.mem_insert] at hid
      obtain rfl | rfl | hid := hid
      · decide
      · decide
      · cases hid
    · change (AList.insert _ _ (AList.insert _ _ ∅) : Table (ℕ × ℕ) KittyPlacement).lookup _ = _
        at hp
      rw [Table.lookup_insert_of, Table.lookup_insert_of] at hp
      split_ifs at hp with hsecond hfirst
      · cases hp
        exact ⟨hsecond, by decide⟩
      · cases hp
        exact ⟨hfirst, by decide⟩
      · cases hp
  exact ⟨hkeyed, deletesInScope_iff hkeyed (by decide)⟩

end Terminal
end Kitty
end Rio
