import Rio.Crosswords.DamageOps
import Rio.Crosswords.Snapshot

/-! A panel of a window: the terminal that the PTY thread writes to, the events that tell the window
of damage, and the rows that were drawn last. -/

set_option linter.dupNamespace false

namespace Rio

namespace TermDamageState

def anyLine (d : TermDamageState) : Bool := d.lines.any id

end TermDamageState

namespace Crosswords

/-- Damage a line if it is on the screen. -/
def damageVisibleLine (t : Crosswords) (line : ℤ) : Crosswords :=
  if 0 ≤ line ∧ line.toNat < t.damage.lines.length then t.damageLine line.toNat else t

/-- Extract damage for the renderer. -/
def damageEvent (t : Crosswords) : Crosswords × Option TerminalDamage :=
  let t := if t.mode.insert then t.markFullyDamaged else t
  let previousCursor := t.damage.lastCursor
  let t := { t with damage := { t.damage with lastCursor := t.pos } }
  if t.damage.full then (t, some .full)
  else
    let t :=
      if previousCursor ≠ t.pos then
        (t.damageVisibleLine previousCursor.row).damageVisibleLine t.pos.row
      else t
    (t, if t.damage.anyLine then some .partialRows else none)

def peekDamageEvent (t : Crosswords) : Option TerminalDamage :=
  if t.damage.full then some .full
  else if t.damage.anyLine then some .partialRows
  else if t.damage.lastCursor ≠ t.pos then some .cursorOnly
  else none

end Crosswords

/-- `merge_terminal_damages existing new`. -/
def mergeTerminalDamages (existing new : TerminalDamage) : TerminalDamage :=
  if existing = .full ∨ new = .full then .full
  else if existing = .partialRows ∨ new = .partialRows then .partialRows
  else if existing = .cursorOnly ∨ new = .cursorOnly then .cursorOnly
  else .noop

structure PendingUpdate where
  /-- Whether there's any pending update that needs rendering. -/
  dirty : Bool := false
  terminalDamage : Option TerminalDamage := none
  deriving DecidableEq, Repr

namespace PendingUpdate

def setDirty (u : PendingUpdate) : PendingUpdate := { u with dirty := true }

def setTerminalDamage (u : PendingUpdate) (damage : TerminalDamage) : PendingUpdate :=
  { dirty := true
    terminalDamage := some (u.terminalDamage.elim damage (mergeTerminalDamages · damage)) }

end PendingUpdate

structure Rioterm.Panel where
  terminal : Crosswords
  damageEventInFlight : Bool := false
  /-- The events for the panel that the window has not handled yet. -/
  events : ℕ := 0
  pendingUpdate : PendingUpdate := {}
  shown : Snapshot := ⟨[], [], []⟩
  deriving DecidableEq, Repr

/-- What happens to a panel. -/
inductive Rioterm.Panel.Step
  /-- The PTY thread parses with the terminal locked, and may look for damage at the end. -/
  | read (ops : List Op) (looks : Bool)
  /-- The user scrolls, or clears the history, or toggles the vi mode. -/
  | user (op : Op)
  /-- The layout resizes the terminal. -/
  | resize (numCols numLines cellWidth cellHeight : ℕ)
  /-- The window handles an event for the panel. -/
  | handle
  /-- Something else of the panel is to be drawn, over the terminal or with it. -/
  | setDirty
  | setTerminalDamage (damage : TerminalDamage)
  /-- The window draws. All panels are drawn in full when another one has become active. -/
  | frame (forceFullDamage : Bool)
  deriving DecidableEq, Repr

namespace Rioterm.Panel

def new (columns lines scrollbackHistoryLimit : ℕ) : Panel :=
  { terminal := .new columns lines scrollbackHistoryLimit }

/-- Marking a terminal as fully damaged asks for a render, unless it is fully damaged already. -/
def perform (u : Unicode) (p : Panel) (op : Op) : Panel :=
  let t := p.terminal.step u op
  { p with
    terminal := t
    events := if !p.terminal.damage.full && t.damage.full then p.events + 1 else p.events }

/-- Tell the window of damage, if no event is in flight. -/
def notify (p : Panel) : Panel :=
  if !p.damageEventInFlight && p.terminal.peekDamageEvent.isSome then
    { p with damageEventInFlight := true, events := p.events + 1 }
  else p

/-- The damage of a frame. -/
def frameDamage (forceFullDamage : Bool) : Option TerminalDamage → Option TerminalDamage →
    TerminalDamage
  | ui, pty =>
    if forceFullDamage then .full
    else
      match ui, pty with
      | some ui, some pty => mergeTerminalDamages ui pty
      | some d, none => d
      | none, some d => d
      | none, none => .noop

def frame (p : Panel) (forceFullDamage : Bool) : Panel :=
  if !p.pendingUpdate.dirty && !forceFullDamage then p
  else
    let events :=
      if p.terminal.mode.insert && !p.terminal.damage.full then p.events + 1 else p.events
    let (t, ptyDamage) := p.terminal.damageEvent
    let damage := frameDamage forceFullDamage p.pendingUpdate.terminalDamage ptyDamage
    let (t, shown) := t.snapshotVisible damage t.grid.columns p.shown
    { terminal := t.resetDamage
      damageEventInFlight := false
      events := events
      pendingUpdate := {}
      shown := shown }

def step (u : Unicode) (p : Panel) : Step → Panel
  | .read ops looks =>
    let p := ops.foldl (perform u) p
    if looks then p.notify else p
  | .user op => p.perform u op
  | .resize numCols numLines cellWidth cellHeight =>
    { p with
      terminal := p.terminal.resize numCols numLines cellWidth cellHeight
      pendingUpdate := p.pendingUpdate.setTerminalDamage .full }
  | .handle =>
    if p.events = 0 then p
    else { p with events := p.events - 1, pendingUpdate := p.pendingUpdate.setDirty }
  | .setDirty => { p with pendingUpdate := p.pendingUpdate.setDirty }
  | .setTerminalDamage damage =>
    { p with pendingUpdate := p.pendingUpdate.setTerminalDamage damage }
  | .frame forceFullDamage => p.frame forceFullDamage

/-- A panel is drawn when it becomes active, and then takes its steps. -/
def run (u : Unicode) (columns lines limit : ℕ) (steps : List Step) : Panel :=
  steps.foldl (step u) ((new columns lines limit).frame true)

end Rioterm.Panel

/-- What the parser asks of a terminal. -/
def Op.Parsed : Op → Prop
  | .setScrollingRegion top _ => 1 ≤ top
  | .scrollDisplay _ | .updateHistory _ | .toggleViMode | .resize _ _ _ _ => False
  | _ => True

/-- What the user asks of a terminal. -/
def Op.OfUser : Op → Prop
  | .scrollDisplay _ | .clearScreen .saved | .toggleViMode => True
  | _ => False

theorem Op.Parsed.performed {op : Op} (h : op.Parsed) : op.Sized ∧ op.Performed := by
  cases op <;> first | exact ⟨trivial, h⟩ | exact ⟨trivial, trivial⟩ | exact h.elim

theorem Op.OfUser.performed {op : Op} (h : op.OfUser) : op.Sized ∧ op.Performed := by
  cases op <;> first | exact ⟨trivial, trivial⟩ | exact h.elim

/-- The PTY thread looks for damage when it has parsed something. -/
def Rioterm.Panel.Step.Performed : Rioterm.Panel.Step → Prop
  | .read ops looks => (∀ op ∈ ops, op.Parsed) ∧ (ops ≠ [] → looks = true)
  | .user op => op.OfUser
  | .resize numCols numLines _ _ => 2 ≤ numCols ∧ 1 ≤ numLines
  | _ => True

/-! ### Copies of rows -/

/-- The cells of a row as they were drawn. -/
def Snapshot.cells (s : Snapshot) (y : ℕ) : List Square := (s.visibleRows.getD y default).inner

namespace Grid

theorem row_unmarkLines (g : Grid Square) : ∀ (lines : List ℤ) (l : ℤ),
    ((g.unmarkLines lines).row l).inner = (g.row l).inner
  | [], _ => rfl
  | line :: lines, l => by
    have hrest := row_unmarkLines
      { g with raw := g.raw.modify line fun r => { r with dirty := false } } lines l
    refine Eq.trans hrest ?_
    have hrow := Storage.row_modify_cases g.raw line l fun r => { r with dirty := false }
    rcases hrow with h | h
    · exact (congrArg Row.inner h :)
    · exact (congrArg Row.inner h :)

theorem refreshRow_length (g : Grid Square) (cols : ℕ) (dst : Snapshot) (place : ℤ × ℕ) :
    (g.refreshRow cols dst place).visibleRows.length = dst.visibleRows.length := by
  unfold refreshRow
  dsimp only
  split_ifs
  · rfl
  · exact List.length_modify _ _ _

theorem refreshRow_cells (g : Grid Square) (cols : ℕ) (dst : Snapshot) (line : ℤ) {y z : ℕ}
    (hz : z < dst.visibleRows.length) :
    (g.refreshRow cols dst (line, y)).cells z =
      if z = y ∧ (g.row line).dirty = true then (g.row line).inner else dst.cells z := by
  unfold refreshRow Snapshot.cells
  dsimp only
  rcases hdirty : (g.row line).dirty with _ | _
  · simp
  · simp only [Bool.not_true, Bool.false_eq_true, if_false, and_true]
    rw [List.getD_eq_getElem?_getD, List.getD_eq_getElem?_getD, List.getElem?_modify,
      List.getElem?_eq_getElem hz]
    by_cases h : z = y
    · simp [h, Row.copyFrom]
    · simp [h, Ne.symm h]

theorem zipIdx_lineRange (n : ℕ) :
    (lineRange 0 n).zipIdx = (List.range n).map fun y : ℕ => ((y : ℤ), y) := by
  apply List.ext_getElem
  · simp
  · intro i hi hi'
    simp [lineRange]

theorem refreshRows_length (g : Grid Square) (cols : ℕ) :
    ∀ (places : List (ℤ × ℕ)) (dst : Snapshot),
      (places.foldl (g.refreshRow cols) dst).visibleRows.length = dst.visibleRows.length
  | [], _ => rfl
  | place :: places, dst =>
    (refreshRows_length g cols places _).trans (refreshRow_length g cols dst place)

/-- The first `n` rows, refreshed where they are dirty. -/
theorem refreshRows_cells (g : Grid Square) (cols : ℕ) (dst : Snapshot) {z : ℕ}
    (hz : z < dst.visibleRows.length) (n : ℕ) :
    (((List.range n).map fun y : ℕ => ((y : ℤ), y)).foldl (g.refreshRow cols) dst).cells z =
      if z < n ∧ (g.row z).dirty = true then (g.row z).inner else dst.cells z := by
  induction n with
  | zero => simp
  | succ n ih =>
    have hlength := refreshRows_length g cols ((List.range n).map fun y : ℕ => ((y : ℤ), y)) dst
    rw [List.range_succ, List.map_append, List.foldl_append]
    generalize ((List.range n).map fun y : ℕ => ((y : ℤ), y)).foldl (g.refreshRow cols) dst = mid
      at ih hlength
    have hstep := refreshRow_cells g cols mid n (y := n) (hlength ▸ hz)
    refine Eq.trans hstep ?_
    rw [ih]
    by_cases h : z = n
    · subst h
      simp
    · have hlt : z < n + 1 ↔ z < n := by omega
      simp [h, hlt]

end Grid

namespace Crosswords

/-- The rows drawn are those of the screen. -/
def Drawn (t : Crosswords) (shown : Snapshot) : Prop :=
  shown.visibleRows.length = t.grid.lines ∧
    ∀ y < t.grid.lines, shown.cells y = (t.grid.row y).inner

/-- The rows drawn are those of the screen, apart from dirty ones; and all of them if no line is
damaged. -/
def Behind (t : Crosswords) (shown : Snapshot) : Prop :=
  shown.visibleRows.length = t.grid.lines ∧
    (∀ y < t.grid.lines, Marks.Lags Row.dirty Row.inner (t.grid.row y) (shown.cells y)) ∧
    (t.Hinted ∨ ∀ y < t.grid.lines, shown.cells y = (t.grid.row y).inner)

variable {t t' : Crosswords} {shown : Snapshot}

theorem Drawn.behind (h : t.Drawn shown) : t.Behind shown :=
  ⟨h.1, fun y hy => .of_eq (h.2 y hy), .inr h.2⟩

theorem Behind.refreshes (h : t.Behind shown) (hrefreshes : t.Refreshes t')
    (hfull : t'.damage.full = false) : t'.Behind shown := by
  obtain ⟨hlength, hlags, hshown⟩ := h
  have hlines := hrefreshes.alters.lines
  rcases hrefreshes.alters.rows with htrue | hrows
  · rw [hfull] at htrue
    cases htrue
  refine ⟨hlength.trans hlines.symm, fun y hy => ?_, ?_⟩
  · rw [hlines] at hy
    exact (hlags y hy).marked (hrows y (by omega) (by omega))
  · rcases hrefreshes.shown with htrue | hhinted | hcells
    · rw [hfull] at htrue
      cases htrue
    · exact .inl hhinted
    · rcases hshown with hhinted | hdrawn
      · exact .inl (hrefreshes.alters.grows.lines hhinted)
      · right
        intro y hy
        rw [hlines] at hy
        exact (hdrawn y hy).trans (hcells y (by omega) (by omega)).symm

/-- What is drawn of a view at the bottom of the history is behind the screen only where damage
says so. -/
def Tracked (t : Crosswords) (shown : Snapshot) : Prop :=
  t.damage.full = true ∨ t.grid.displayOffset ≠ 0 ∨ t.Behind shown

theorem Tracked.stepped (h : t.Tracked shown) (hlive : t.Live) (hstepped : t.Stepped t') :
    t'.Tracked shown := by
  rcases hstepped.refreshes with hfull | hrefreshes
  · exact .inl hfull
  rcases hfull' : t'.damage.full with _ | _
  · rcases h with hfull | hoffset | hbehind
    · rw [hrefreshes.alters.grows.full hfull] at hfull'
      cases hfull'
    · refine .inr (.inl ?_)
      rwa [ne_eq, hrefreshes.alters.offset hlive.anchored]
    · exact .inr (.inr (hbehind.refreshes hrefreshes hfull'))
  · exact .inl hfull'

/-! ### A frame -/

theorem Live.unmarkLines (h : t.Live) (lines : List ℤ) :
    (t.mapGrid (·.unmarkLines lines)).Live := by
  have hsound : (t.grid.unmarkLines lines).Sound False := by
    have hg := h.sound.grid
    generalize t.grid = g at hg
    induction lines generalizing g with
    | nil => exact hg
    | cons line lines ih =>
      exact ih _ (hg.modifyRow line (f := fun r => { r with dirty := false }) fun _ => rfl)
  exact ⟨h.sound.mapGrid hsound rfl rfl, h.start, h.stop, h.marks, h.anchored, h.inactive⟩

theorem snapshotVisible_live (h : t.Live) (damage : TerminalDamage) (cols : ℕ) (dst : Snapshot) :
    (t.snapshotVisible damage cols dst).1.Live := by
  unfold snapshotVisible
  dsimp only
  split_ifs
  · exact h.unmarkLines _
  · exact h
  · exact h.unmarkLines _

theorem snapshotVisible_displayOffset (t : Crosswords) (damage : TerminalDamage) (cols : ℕ)
    (dst : Snapshot) :
    (t.snapshotVisible damage cols dst).1.grid.displayOffset = t.grid.displayOffset := by
  unfold snapshotVisible
  dsimp only
  split_ifs <;> rfl

/-- A snapshot at the bottom of the history, taken in full or of what is behind. -/
theorem drawn_snapshotVisible (hoffset : t.grid.displayOffset = 0) {damage : TerminalDamage}
    (cols : ℕ)
    (h : damage = .full ∨ t.Behind shown ∧ (t.Hinted → damage = .partialRows)) :
    (t.snapshotVisible damage cols shown).1.Drawn (t.snapshotVisible damage cols shown).2 := by
  have hvisible : t.grid.visibleLines = lineRange 0 t.grid.lines := by
    unfold Grid.visibleLines
    rw [hoffset]
    simp
  unfold snapshotVisible
  dsimp only
  rw [hvisible]
  split_ifs with hfull hidle
  · refine ⟨by simp [Grid.unmarkLines], fun y hy => ?_⟩
    change y < t.grid.lines at hy
    rw [Grid.row_unmarkLines]
    have hy' : y < ((lineRange 0 t.grid.lines).map t.grid.row).length := by simpa using hy
    unfold Snapshot.cells
    dsimp only
    rw [List.getD_eq_getElem?_getD, List.getElem?_map, List.getElem?_eq_getElem hy']
    simp [lineRange, Row.markDirty]
  · have hpartial := h.resolve_left fun heq => hfull (.inl heq)
    obtain ⟨⟨hlength, -, hshown⟩, hhint⟩ := hpartial
    refine ⟨hlength, hshown.resolve_left fun hhinted => ?_⟩
    rw [hhint hhinted] at hidle
    simp at hidle
  · have hpartial := h.resolve_left fun heq => hfull (.inl heq)
    obtain ⟨⟨hlength, hlags, -⟩, -⟩ := hpartial
    rw [Grid.zipIdx_lineRange]
    refine ⟨(Grid.refreshRows_length _ _ _ _).trans hlength, fun y hy => ?_⟩
    change y < t.grid.lines at hy
    rw [Grid.row_unmarkLines, Grid.refreshRows_cells _ _ _ (hlength.symm ▸ hy)]
    simp only [hy, true_and]
    exact (hlags y hy).refresh

theorem damageVisibleLine_eq (t : Crosswords) (line : ℤ) : ∃ damage : TermDamageState,
    t.damageVisibleLine line = { t with damage := damage } ∧ t.damage.Grows damage := by
  unfold damageVisibleLine
  split_ifs
  · exact ⟨_, rfl, TermDamageState.grows_damageLine _ _⟩
  · exact ⟨_, rfl, .refl _⟩

theorem anyLine_iff (d : TermDamageState) : d.anyLine = true ↔ true ∈ d.lines := by
  simp [TermDamageState.anyLine]

/-- Extracting damage: all of it is reported. -/
theorem damageEvent_cases (t : Crosswords) : ∃ damage : TermDamageState,
    t.damageEvent.1 = { t with damage := damage } ∧ t.damage.Grows damage ∧
      (t.damageEvent.2 = some .full ∨
        t.damage.full = false ∧ (true ∈ damage.lines → t.damageEvent.2 = some .partialRows)) := by
  unfold damageEvent
  dsimp only
  by_cases hinsert : t.mode.insert = true
  · rw [if_pos hinsert]
    exact ⟨_, rfl, ⟨rfl, fun _ => rfl, id⟩, .inl rfl⟩
  rw [if_neg hinsert]
  by_cases hfull : t.damage.full = true
  · rw [if_pos hfull]
    exact ⟨_, rfl, ⟨rfl, id, id⟩, .inl rfl⟩
  rw [if_neg hfull]
  have hunfull : t.damage.full = false := by simpa using hfull
  obtain ⟨t₁, ht₁, hmoved⟩ : ∃ t₁ : Crosswords, t₁ = { t with damage.lastCursor := t.pos } ∧
      t.damage.Grows t₁.damage := ⟨_, rfl, ⟨rfl, id, id⟩⟩
  rw [← ht₁]
  obtain ⟨d₂, heq₂, hgrows₂⟩ : ∃ d₂ : TermDamageState,
      (if t.damage.lastCursor ≠ t₁.pos then
        (t₁.damageVisibleLine t.damage.lastCursor.row).damageVisibleLine t₁.pos.row
      else t₁) = { t₁ with damage := d₂ } ∧ t₁.damage.Grows d₂ := by
    split_ifs
    · obtain ⟨d, heq, hgrows⟩ := damageVisibleLine_eq t₁ t.damage.lastCursor.row
      obtain ⟨d', heq', hgrows'⟩ := damageVisibleLine_eq
        (t₁.damageVisibleLine t.damage.lastCursor.row) t₁.pos.row
      refine ⟨d', ?_, hgrows.trans ?_⟩
      · rw [heq', heq]
      · rwa [heq] at hgrows'
    · exact ⟨_, rfl, .refl _⟩
  rw [heq₂]
  refine ⟨d₂, ?_, hmoved.trans hgrows₂, .inr ⟨hunfull, fun hhinted => ?_⟩⟩
  · rw [ht₁]
  · rw [if_pos]
    exact (anyLine_iff d₂).mpr hhinted

theorem peekDamageEvent_isSome (h : t.damage.full = true ∨ t.Hinted) :
    t.peekDamageEvent.isSome = true := by
  unfold peekDamageEvent
  rcases hfull : t.damage.full with _ | _
  · have hany := (anyLine_iff t.damage).mpr (h.resolve_left (by simp [hfull]))
    simp [hany]
  · rfl

end Crosswords

namespace Rioterm.Panel

variable {p : Panel} {u : Unicode}

/-- What the window is to know: the rows drawn are behind the screen only where damage says so, and
of damage there is an event on its way to the window, or the panel is to be drawn. -/
structure Sound (p : Panel) : Prop where
  live : p.terminal.Live
  tracked : p.terminal.Tracked p.shown
  told : p.terminal.damage.full = true ∨ p.terminal.Hinted ∨ p.damageEventInFlight = true →
    0 < p.events ∨ p.pendingUpdate.dirty = true

theorem frameDamage_full (forceFullDamage : Bool) (ui : Option TerminalDamage) :
    frameDamage forceFullDamage ui (some .full) = .full := by
  unfold frameDamage
  cases ui with
  | none => split_ifs <;> rfl
  | some ui =>
    split_ifs
    · rfl
    · simp [mergeTerminalDamages]

theorem frameDamage_partialRows (forceFullDamage : Bool) (ui : Option TerminalDamage) :
    frameDamage forceFullDamage ui (some .partialRows) = .full ∨
      frameDamage forceFullDamage ui (some .partialRows) = .partialRows := by
  unfold frameDamage
  cases ui with
  | none => split_ifs <;> simp
  | some ui =>
    split_ifs
    · simp
    · cases ui <;> simp [mergeTerminalDamages]

/-- The snapshot of a frame. -/
def snapshot (p : Panel) (forceFullDamage : Bool) : Crosswords × Snapshot :=
  p.terminal.damageEvent.1.snapshotVisible
    (frameDamage forceFullDamage p.pendingUpdate.terminalDamage p.terminal.damageEvent.2)
    p.terminal.damageEvent.1.grid.columns p.shown

theorem frame_eq {forceFullDamage : Bool}
    (hdraws : p.pendingUpdate.dirty = true ∨ forceFullDamage = true) :
    p.frame forceFullDamage =
      { terminal := (p.snapshot forceFullDamage).1.resetDamage
        damageEventInFlight := false
        events :=
          if p.terminal.mode.insert && !p.terminal.damage.full then p.events + 1 else p.events
        pendingUpdate := {}
        shown := (p.snapshot forceFullDamage).2 } := by
  unfold frame
  rw [if_neg]
  · rfl
  · rcases hdraws with h | h <;> simp [h]

theorem snapshot_live (hlive : p.terminal.Live) (forceFullDamage : Bool) :
    (p.snapshot forceFullDamage).1.Live := by
  obtain ⟨damage, heq, hgrows, -⟩ := Crosswords.damageEvent_cases p.terminal
  unfold snapshot
  rw [heq]
  have hextracted : Crosswords.Live { p.terminal with damage := damage } :=
    hlive.of_eq rfl rfl rfl hgrows.length
  exact Crosswords.snapshotVisible_live hextracted _ _ _

/-- A frame draws the screen, if the view is at the bottom of the history. -/
theorem snapshot_drawn (htracked : p.terminal.Tracked p.shown) (forceFullDamage : Bool)
    (hoffset : (p.snapshot forceFullDamage).1.grid.displayOffset = 0) :
    (p.snapshot forceFullDamage).1.Drawn (p.snapshot forceFullDamage).2 := by
  obtain ⟨damage, heq, hgrows, hpty⟩ := Crosswords.damageEvent_cases p.terminal
  unfold snapshot at hoffset ⊢
  rw [Crosswords.snapshotVisible_displayOffset] at hoffset
  refine Crosswords.drawn_snapshotVisible hoffset _ ?_
  rw [heq] at hoffset ⊢
  rcases hpty with hfull | ⟨hunfull, hhint⟩
  · rw [hfull]
    exact .inl (frameDamage_full _ _)
  · have hbehind : Crosswords.Behind { p.terminal with damage := damage } p.shown := by
      rcases htracked with hfull | hscrolled | ⟨hlength, hlags, hshown⟩
      · rw [hunfull] at hfull
        cases hfull
      · exact absurd hoffset hscrolled
      · exact ⟨hlength, hlags, hshown.imp_left hgrows.lines⟩
    by_cases hhinted : true ∈ damage.lines
    · rw [hhint hhinted]
      rcases frameDamage_partialRows forceFullDamage p.pendingUpdate.terminalDamage with h | h
      · exact .inl h
      · exact .inr ⟨hbehind, fun _ => h⟩
    · exact .inr ⟨hbehind, fun h => absurd h hhinted⟩

/-- What a frame leaves. -/
theorem frame_sound (hlive : p.terminal.Live) (htracked : p.terminal.Tracked p.shown)
    {forceFullDamage : Bool}
    (hdraws : p.pendingUpdate.dirty = true ∨ forceFullDamage = true) :
    (p.frame forceFullDamage).Sound := by
  have hsnapshot := snapshot_live hlive forceFullDamage
  have hdrawn := snapshot_drawn htracked forceFullDamage
  rw [frame_eq hdraws]
  generalize p.snapshot forceFullDamage = snapshot at hsnapshot hdrawn
  obtain ⟨t, shown⟩ := snapshot
  dsimp only at hsnapshot hdrawn ⊢
  have hnone : ¬ true ∈ t.damage.reset.lines := by simp [TermDamageState.reset]
  refine ⟨hsnapshot.of_eq rfl rfl rfl ?_, ?_, ?_⟩
  · exact List.length_map _
  · by_cases hoffset : t.grid.displayOffset = 0
    · have hbehind : t.resetDamage.Behind shown := Crosswords.Drawn.behind (hdrawn hoffset)
      exact .inr (.inr hbehind)
    · exact .inr (.inl hoffset)
  · rintro (hfull | hhinted | hflight)
    · cases hfull
    · exact absurd hhinted hnone
    · cases hflight

/-! ### Steps and runs -/

/-- What holds while the PTY thread has the terminal locked: of damaged lines the window need not
know yet. -/
structure Reading (p : Panel) : Prop where
  live : p.terminal.Live
  tracked : p.terminal.Tracked p.shown
  told : p.terminal.damage.full = true ∨ p.damageEventInFlight = true →
    0 < p.events ∨ p.pendingUpdate.dirty = true

theorem Sound.reading (h : p.Sound) : p.Reading :=
  ⟨h.live, h.tracked, fun htold => h.told (htold.imp_right .inr)⟩

theorem Reading.perform (h : p.Reading) {op : Op} (hsized : op.Sized)
    (hperformed : op.Performed) : (p.perform u op).Reading := by
  have hstepped := h.live.stepped u hsized hperformed
  refine ⟨hstepped.live, h.tracked.stepped h.live hstepped, fun htold => ?_⟩
  unfold Panel.perform at htold ⊢
  dsimp only at htold ⊢
  by_cases hbefore : p.terminal.damage.full = true ∨ p.damageEventInFlight = true
  · rcases h.told hbefore with hevents | hdirty
    · left
      split_ifs <;> omega
    · exact .inr hdirty
  · have hafter := htold.resolve_right fun hflight => hbefore (.inr hflight)
    have hunfull : p.terminal.damage.full = false := by
      simpa using fun hfull => hbefore (.inl hfull)
    left
    rw [hunfull, hafter]
    simp

theorem Reading.performs (ops : List Op) (hparsed : ∀ op ∈ ops, op.Parsed) {p : Panel}
    (h : p.Reading) : (ops.foldl (Panel.perform u) p).Reading := by
  induction ops generalizing p with
  | nil => exact h
  | cons op ops ih =>
    obtain ⟨hsized, hperformed⟩ := (hparsed op List.mem_cons_self).performed
    exact ih (fun op hop => hparsed op (List.mem_cons_of_mem _ hop)) (h.perform hsized hperformed)

/-- Looking for damage at the end tells the window of the damaged lines, too. -/
theorem Reading.notify (h : p.Reading) : p.notify.Sound := by
  unfold Panel.notify
  split_ifs with hsends
  · exact ⟨h.live, h.tracked, fun _ => .inl (Nat.succ_pos _)⟩
  · refine ⟨h.live, h.tracked, fun htold => h.told ?_⟩
    rcases hflight : p.damageEventInFlight with _ | _
    · have hdamage : p.terminal.damage.full = true ∨ p.terminal.Hinted := by
        rcases htold with hfull | hhinted | hset
        · exact .inl hfull
        · exact .inr hhinted
        · rw [hflight] at hset
          cases hset
      rw [hflight, Crosswords.peekDamageEvent_isSome hdamage] at hsends
      simp at hsends
    · exact .inr rfl

/-- What the user does damages the terminal as a whole or not at all. -/
theorem step_lines_of_user (t : Crosswords) {op : Op} (h : op.OfUser) :
    (t.step u op).damage.lines = t.damage.lines := by
  cases op with
  | scrollDisplay scroll =>
    show (t.scrollDisplay scroll).damage.lines = _
    unfold Crosswords.scrollDisplay
    dsimp only
    split_ifs <;> rfl
  | toggleViMode =>
    show t.toggleViMode.damage.lines = _
    unfold Crosswords.toggleViMode
    dsimp only
    split_ifs <;> rfl
  | clearScreen mode =>
    cases mode with
    | saved =>
      show (t.clearScreen .saved).damage.lines = _
      unfold Crosswords.clearScreen Crosswords.withBlank
      dsimp only
      split_ifs <;> rfl
    | _ => exact h.elim
  | _ => exact h.elim

theorem Sound.step (h : p.Sound) {s : Step} (hperformed : s.Performed) : (p.step u s).Sound := by
  cases s with
  | read ops looks =>
    obtain ⟨hparsed, hlooks⟩ := hperformed
    have hread := h.reading.performs (u := u) ops hparsed
    show (if looks then (ops.foldl (Panel.perform u) p).notify
      else ops.foldl (Panel.perform u) p).Sound
    split_ifs with hset
    · exact hread.notify
    · have hnil : ops = [] := by
        by_contra hne
        exact hset (hlooks hne)
      rw [hnil]
      exact h
  | user op =>
    obtain ⟨hsized, hop⟩ := hperformed.performed
    have hread := h.reading.perform (u := u) hsized hop
    refine ⟨hread.live, hread.tracked, fun htold => ?_⟩
    rcases htold with hfull | hhinted | hflight
    · exact hread.told (.inl hfull)
    · have hbefore : p.terminal.Hinted := by
        unfold Crosswords.Hinted at hhinted ⊢
        rwa [← step_lines_of_user (u := u) p.terminal hperformed]
      rcases h.told (.inr (.inl hbefore)) with hevents | hdirty
      · left
        show 0 < (p.perform u op).events
        unfold Panel.perform
        dsimp only
        split_ifs <;> omega
      · exact .inr hdirty
    · exact hread.told (.inr hflight)
  | resize numCols numLines cellWidth cellHeight =>
    have hstepped := h.live.stepped_resize hperformed.1 hperformed.2 cellWidth cellHeight
    exact ⟨hstepped.live, h.tracked.stepped h.live hstepped, fun _ => .inr rfl⟩
  | handle =>
    show (if p.events = 0 then p
      else { p with events := p.events - 1, pendingUpdate := p.pendingUpdate.setDirty }).Sound
    split_ifs
    · exact h
    · exact ⟨h.live, h.tracked, fun _ => .inr rfl⟩
  | setDirty => exact ⟨h.live, h.tracked, fun _ => .inr rfl⟩
  | setTerminalDamage damage => exact ⟨h.live, h.tracked, fun _ => .inr rfl⟩
  | frame forceFullDamage =>
    show (p.frame forceFullDamage).Sound
    by_cases hdraws : p.pendingUpdate.dirty = true ∨ forceFullDamage = true
    · exact frame_sound h.live h.tracked hdraws
    · have heq : p.frame forceFullDamage = p := by
        unfold Panel.frame
        rw [if_pos]
        simpa using hdraws
      rwa [heq]

variable {columns lines : ℕ}

theorem run_sound (u : Unicode) (hcolumns : 2 ≤ columns) (hlines : 1 ≤ lines) (limit : ℕ)
    {steps : List Step} (hsteps : ∀ s ∈ steps, s.Performed) :
    (run u columns lines limit steps).Sound := by
  have hnew : (new columns lines limit).terminal.Live := Crosswords.new_live hcolumns hlines limit
  have hdrawn : ((new columns lines limit).frame true).Sound :=
    frame_sound hnew (.inl rfl) (.inr rfl)
  have hpermitted : Runs.Permitted (step u) (fun _ s => s.Performed)
      ((new columns lines limit).frame true) steps := .of_forall hsteps
  exact Runs.invariant (fun p s h hs => h.step hs) steps _ hdrawn hpermitted

theorem drawn_viewport {t : Crosswords} {shown : Snapshot} (h : t.Drawn shown) :
    shown.visibleRows.map Row.inner = t.grid.viewport.map Row.inner := by
  obtain ⟨hlength, hcells⟩ := h
  apply List.ext_getElem
  · simp [Grid.viewport, hlength]
  · intro y hy _
    have hy' : y < shown.visibleRows.length := by simpa using hy
    have hcell := hcells y (hlength ▸ hy')
    unfold Snapshot.cells at hcell
    rw [List.getD_eq_getElem?_getD, List.getElem?_eq_getElem hy', Option.getD_some] at hcell
    simp [Grid.viewport, lineRange, hcell]

/-- A frame draws the screen as it is, whatever happened since the last one. -/
theorem run_frame (u : Unicode) (hcolumns : 2 ≤ columns) (hlines : 1 ≤ lines) (limit : ℕ)
    {steps : List Step} (hsteps : ∀ s ∈ steps, s.Performed) {forceFullDamage : Bool}
    (hdraws : (run u columns lines limit steps).pendingUpdate.dirty = true ∨
      forceFullDamage = true) :
    let p := (run u columns lines limit steps).frame forceFullDamage
    p.terminal.grid.displayOffset = 0 →
      p.shown.visibleRows.map Row.inner = p.terminal.grid.viewport.map Row.inner := by
  have hsound := run_sound u hcolumns hlines limit hsteps
  rw [frame_eq hdraws]
  intro p hoffset
  exact drawn_viewport (snapshot_drawn hsound.tracked forceFullDamage hoffset)

/-- A letter on each of two lines, in two reads. -/
theorem run_frame_printed :
    let p := (run .basic 3 2 0 [.read [.input 'a', .linefeed] true, .handle,
      .read [.input 'b'] true]).frame false
    p.shown.visibleRows.map Row.inner = p.terminal.grid.viewport.map Row.inner :=
  run_frame .basic (by decide) (by decide) 0 (by simp [Step.Performed, Op.Parsed])
    (.inl (by decide)) (by decide)

end Rioterm.Panel

end Rio
