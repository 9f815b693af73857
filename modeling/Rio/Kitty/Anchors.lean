import Rio.Crosswords.Bounds
import Rio.Crosswords.Shift
import Rio.Kitty.Numbers

/-! Kitty placements and the rows of text that they are anchored to. -/

set_option linter.dupNamespace false

namespace Rio

/-! ### One scroll -/

namespace Shift

/-- The lines scrolled are lines of a screen, and no more than there are. -/
def Fits (lines : ℕ) : Shift → Prop
  | none => True
  | up r n => 0 ≤ r.start ∧ r.stop ≤ lines ∧ (r.start = 0 → n ≤ r.stop)
  | down r _ => 0 ≤ r.start

/-- A placement on a line keeps its row of text: the lines above the end of a region at the top of
the screen go into the history, which has room for all of them; what is not scrolled stays where
it is, and the history does not grow. -/
def Carries (g : Grid Square) (line : ℤ) : Shift → Prop
  | none => True
  | up r n =>
    if r.start = 0 then
      if line < r.stop then g.historySize + n ≤ g.maxScrollLimit
      else n = 0 ∨ g.historySize = g.maxScrollLimit
    else r.clamp n = 0 ∨ line < r.start ∨ r.stop ≤ line
  | down r n => r.clamp n = 0 ∨ line < r.start ∨ r.stop ≤ line

instance (g : Grid Square) (line : ℤ) (s : Shift) : Decidable (s.Carries g line) := by
  cases s <;> unfold Carries <;> infer_instance

variable {g : Grid Square} {s : Shift} {line : ℤ}

theorem history_le (hlimit : g.historySize ≤ g.maxScrollLimit) (s : Shift) :
    g.historySize ≤ s.history g := by
  cases s with
  | up r n =>
    unfold history
    dsimp only
    split_ifs <;> omega
  | none => exact le_rfl
  | down r n => exact le_rfl

/-- A placement moves up by the growth of the history; that is where its text goes exactly when
the scroll carries it. -/
theorem carries_iff (hlimit : g.historySize ≤ g.maxScrollLimit) (hfits : s.Fits g.lines)
    (htop : -(g.historySize : ℤ) ≤ line) (hline : line < g.lines) :
    (∀ l, -(s.history g : ℤ) ≤ l → l < g.lines →
      (line - (s.history g - g.historySize : ℤ) = l ↔ s.origin l = some line)) ↔
      s.Carries g line := by
  have hgrows := history_le hlimit s
  constructor
  · intro h
    have hhere := (h (line - (s.history g - g.historySize)) (by omega) (by omega)).mp rfl
    cases s with
    | none => trivial
    | up r n =>
      obtain ⟨hstart, hstop, hn⟩ := hfits
      have hclamp : r.clamp n = min n (r.stop - r.start).toNat := rfl
      change r.originUp n _ = some line at hhere
      unfold Region.originUp at hhere
      unfold history at hhere
      unfold Carries
      dsimp only at hhere ⊢
      by_cases hzero : r.start = 0
      · have := hn hzero
        simp only [if_pos hzero] at hhere ⊢
        split_ifs at hhere ⊢ <;> grind
      · simp only [if_neg hzero] at hhere ⊢
        split_ifs at hhere <;> grind
    | down r n =>
      change r.originDown n _ = some line at hhere
      unfold Region.originDown at hhere
      unfold history at hhere
      unfold Carries
      dsimp only at hhere ⊢
      split_ifs at hhere <;> grind
  · intro h l hltop hl
    cases s with
    | none =>
      have hsame : (none : Shift).history g = g.historySize := rfl
      rw [hsame]
      show _ ↔ some l = some line
      rw [Option.some.injEq]
      omega
    | up r n =>
      obtain ⟨hstart, hstop, hn⟩ := hfits
      have hclamp : r.clamp n = min n (r.stop - r.start).toNat := rfl
      unfold Carries at h
      unfold history at hltop ⊢
      unfold origin Region.originUp
      dsimp only at h hltop ⊢
      by_cases hzero : r.start = 0
      · have := hn hzero
        simp only [if_pos hzero] at h hltop ⊢
        split_ifs at h ⊢ <;> grind
      · simp only [if_neg hzero] at h hltop ⊢
        split_ifs <;> grind
    | down r n =>
      have hclamp : r.clamp n = min n (r.stop - r.start).toNat := rfl
      unfold Carries at h
      unfold history at hltop ⊢
      unfold origin Region.originDown
      dsimp only at h hltop ⊢
      split_ifs <;> grind

end Shift

namespace Crosswords

variable {t : Crosswords}

theorem shift_fits (h : t.Sound False) (hregion : t.RegionOrdered) (u : Unicode) {op : Op}
    (hop : Rolling op) : (t.shift u op).Fits t.grid.lines := by
  have hstop := h.region
  have hrow : 0 ≤ t.pos.row := h.grid.cursor.1
  obtain ⟨hstart, hle⟩ := hregion
  have hup (origin : ℤ) (lines : ℕ) (horigin : t.scrollRegion.start ≤ origin) :
      (Shift.up ⟨origin, t.scrollRegion.stop⟩ (t.scrollCount lines)).Fits t.grid.lines := by
    refine ⟨hstart.trans horigin, hstop, fun hzero => ?_⟩
    unfold scrollCount
    dsimp only at hzero ⊢
    omega
  have hfeed : t.linefeedShift.Fits t.grid.lines := by
    unfold linefeedShift
    split_ifs
    · exact hup _ 1 le_rfl
    · trivial
  cases op with
  | input c =>
    show (if Wraps u t c then _ else _ : Shift).Fits _
    split_ifs
    · exact hfeed
    · trivial
  | linefeed => exact hfeed
  | newline => exact hfeed
  | reverseIndex =>
    show (if t.pos.row = t.scrollRegion.start then _ else _ : Shift).Fits _
    split_ifs
    · exact hstart
    · trivial
  | scrollUp lines => exact hup _ lines le_rfl
  | scrollDown lines => exact hstart
  | deleteLines lines =>
    show (if _ then _ else _ : Shift).Fits _
    split_ifs with hinside
    · exact hup _ _ hinside.2.1
    · trivial
  | insertBlankLines lines =>
    show (if _ then _ else _ : Shift).Fits _
    split_ifs
    · exact hrow
    · trivial
  | _ => exact hop.elim

end Crosswords

/-! ### Placements over runs -/

namespace Kitty.Terminal
open Crosswords Runs

/-- The line of the screen that a placement begins on. -/
def line (t : Terminal) (p : KittyPlacement) : ℤ := p.destRow - t.crosswords.grid.historySize

/-- The placement with a key begins on a line. -/
def At (t : Terminal) (key : ℕ × ℕ) (line : ℤ) : Prop :=
  ∃ p, t.graphics.screen.kittyPlacements.lookup key = some p ∧ t.line p = line

/-- A line of the screen or its history. -/
def HasLine (t : Terminal) (line : ℤ) : Prop :=
  t.crosswords.grid.topmostLine ≤ line ∧ line < t.crosswords.grid.lines

/-- The line that the text of a line was on before a run. -/
def originOf (outside : Outside) : Terminal → List Op → ℤ → Option ℤ
  | _, [], line => some line
  | t, op :: ops, line =>
    (originOf outside (t.operate outside op) ops line).bind
      (t.crosswords.shift outside.unicode op).origin

/-- A run prints on the text that ends up on a line. -/
def Prints (outside : Outside) : Terminal → List Op → ℤ → Prop
  | _, [], _ => False
  | t, op :: ops, line =>
    Prints outside (t.operate outside op) ops line ∨
      ∃ l, originOf outside (t.operate outside op) ops line = some l ∧
        (t.operate outside op).crosswords.writes op l

/-- After a run, a placement that began on a line is where the text of that line is. -/
structure Anchored (outside : Outside) (t : Terminal) (ops : List Op) (key : ℕ × ℕ) (line : ℤ) :
    Prop where
  text : ∀ l', (ops.foldl (operate outside) t).HasLine l' → ∀ l, originOf outside t ops l' = some l →
    t.HasLine l ∧ (¬Prints outside t ops l' → ∀ col,
      (ops.foldl (operate outside) t).crosswords.grid.cell ⟨l', col⟩ =
        t.crosswords.grid.cell ⟨l, col⟩)
  place : ∀ l', (ops.foldl (operate outside) t).HasLine l' →
    ((ops.foldl (operate outside) t).At key l' ↔ originOf outside t ops l' = some line)

variable {outside : Outside} {t : Terminal} {op : Op} {ops : List Op} {key : ℕ × ℕ}
  {p : KittyPlacement}

theorem operate_crosswords (t : Terminal) (op : Op) :
    (t.operate outside op).crosswords = t.crosswords.step outside.unicode op := rfl

/-- Prints, line feeds and scrolls leave the graphics alone. -/
theorem operate_graphics (t : Terminal) (hop : Rolling op) :
    (t.operate outside op).graphics = t.graphics := by
  have hmode := (step_frame outside.unicode t.crosswords hop.editsScreen).mode
  have hscreen : (t.crosswords.step outside.unicode op).mode.altScreen =
      t.crosswords.mode.altScreen := by rw [hmode]
  cases op with
  | input | linefeed | newline | reverseIndex | scrollUp | scrollDown | deleteLines
  | insertBlankLines => exact if_pos hscreen
  | _ => exact hop.elim

/-- What holds of the terminal in a run of scrolls. -/
structure Rolled (t : Terminal) : Prop where
  sound : t.crosswords.Sound False
  region : t.crosswords.RegionOrdered

theorem Rolled.operate (h : t.Rolled) (hop : Rolling op) : (t.operate outside op).Rolled := by
  have hframe := step_frame outside.unicode t.crosswords hop.editsScreen
  refine ⟨step_sound h.sound _ hop.sized fun hD => hD.elim, ?_⟩
  unfold RegionOrdered
  rw [operate_crosswords, hframe.scrollRegion]
  exact h.region

theorem Rolled.rolls (h : t.Rolled) (hop : Rolling op) :
    t.crosswords.Rolls (t.operate outside op).crosswords (t.crosswords.shift outside.unicode op)
      ((t.operate outside op).crosswords.writes op) :=
  rolls_step h.sound h.region outside.unicode hop

theorem at_iff (hp : t.graphics.screen.kittyPlacements.lookup key = some p) (line : ℤ) :
    t.At key line ↔ t.line p = line := by
  constructor
  · rintro ⟨p', hp', hline⟩
    rwa [Option.some.inj (hp.symm.trans hp')]
  · exact fun hline => ⟨p, hp, hline⟩

/-- One step moves a placement to where its text goes exactly when the scroll carries it. -/
theorem Rolled.step_iff (h : t.Rolled) (hop : Rolling op) (hline : t.HasLine (t.line p)) :
    (∀ l', (t.operate outside op).HasLine l' →
      ((t.operate outside op).line p = l' ↔
        (t.crosswords.shift outside.unicode op).origin l' = some (t.line p))) ↔
      (t.crosswords.shift outside.unicode op).Carries t.crosswords.grid (t.line p) := by
  have hrolls : t.crosswords.Rolls (t.operate outside op).crosswords _ _ := h.rolls hop
  have hmoves : (t.operate outside op).line p = t.line p -
      ((t.crosswords.shift outside.unicode op).history t.crosswords.grid -
        t.crosswords.grid.historySize : ℤ) := by
    unfold line
    rw [hrolls.history]
    omega
  have hcarries := Shift.carries_iff h.sound.grid.wellFormed.limit
    (shift_fits h.sound h.region outside.unicode hop) hline.1 hline.2
  rw [← hcarries, hmoves]
  constructor
  · intro hall l hltop hl
    refine hall l ⟨?_, ?_⟩
    · rw [Grid.topmostLine_eq, hrolls.history]
      exact hltop
    · rwa [hrolls.lines]
  · rintro hall l ⟨hltop, hl⟩
    rw [Grid.topmostLine_eq, hrolls.history] at hltop
    rw [hrolls.lines] at hl
    exact hall l hltop hl

/-- A placement that is carried along stays on the screen or in its history. -/
theorem Rolled.hasLine (h : t.Rolled) (hop : Rolling op) (hline : t.HasLine (t.line p)) :
    (t.operate outside op).HasLine ((t.operate outside op).line p) := by
  have hrolls : t.crosswords.Rolls (t.operate outside op).crosswords _ _ := h.rolls hop
  have hgrows := Shift.history_le h.sound.grid.wellFormed.limit
    (t.crosswords.shift outside.unicode op)
  obtain ⟨htop, hbottom⟩ := hline
  rw [Grid.topmostLine_eq] at htop
  unfold HasLine line at *
  rw [Grid.topmostLine_eq, hrolls.history, hrolls.lines]
  omega

theorem originOf_cons {l' l : ℤ} : originOf outside t (op :: ops) l' = some l ↔
    ∃ m, originOf outside (t.operate outside op) ops l' = some m ∧
      (t.crosswords.shift outside.unicode op).origin m = some l :=
  Option.bind_eq_some_iff

/-- The text of a line is the text of the line that it was on before the run. -/
theorem Rolled.text : ∀ {ops : List Op} {t : Terminal}, t.Rolled → (∀ op ∈ ops, Rolling op) →
    ∀ l', (ops.foldl (Terminal.operate outside) t).HasLine l' → ∀ l, originOf outside t ops l' = some l →
      t.HasLine l ∧ (¬Prints outside t ops l' → ∀ col,
        (ops.foldl (Terminal.operate outside) t).crosswords.grid.cell ⟨l', col⟩ =
          t.crosswords.grid.cell ⟨l, col⟩)
  | [], t, _, _, l', hl', l, hl => by
    cases hl
    exact ⟨hl', fun _ _ => rfl⟩
  | op :: ops, t, h, hops, l', hl', l, hl => by
    have hop := hops op List.mem_cons_self
    obtain ⟨m, hm, horigin⟩ := originOf_cons.mp hl
    obtain ⟨hline, hcells⟩ := (h.operate hop).text
      (fun op hmem => hops op (List.mem_cons_of_mem _ hmem)) l' hl' m hm
    obtain ⟨hltop, hlline, htext⟩ := (h.rolls hop).text m hline.1 hline.2 l horigin
    refine ⟨⟨hltop, hlline⟩, fun hprints col => ?_⟩
    have hrest := hcells (fun hrest => hprints (.inl hrest)) col
    exact hrest.trans (htext (fun hwrites => hprints (.inr ⟨m, hm, hwrites⟩)) col)

theorem anchored_nil (hp : t.graphics.screen.kittyPlacements.lookup key = some p) :
    t.Anchored outside [] key (t.line p) := by
  refine ⟨?_, fun l' _ => ?_⟩
  · rintro l' hl' l ⟨⟩
    exact ⟨hl', fun _ _ => rfl⟩
  · show t.At key l' ↔ some l' = some (t.line p)
    rw [at_iff hp, Option.some.injEq, eq_comm]

/-- Where a placement is anchored after a step and a run is told by the step and by where it is
anchored after the run. -/
theorem Rolled.anchored_cons (h : t.Rolled) (hops : ∀ op' ∈ op :: ops, Rolling op')
    (hline : t.HasLine (t.line p))
    (hstep : (t.crosswords.shift outside.unicode op).Carries t.crosswords.grid (t.line p)) :
    t.Anchored outside (op :: ops) key (t.line p) ↔
      (t.operate outside op).Anchored outside ops key ((t.operate outside op).line p) := by
  have hop := hops op List.mem_cons_self
  have hops' (op' : Op) (hmem : op' ∈ ops) : Rolling op' := hops op' (List.mem_cons_of_mem _ hmem)
  have hmoves := (h.step_iff hop hline).mpr hstep
  have horigin (l' : ℤ) (hl' : (ops.foldl (Terminal.operate outside)
      (t.operate outside op)).HasLine l') :
      originOf outside t (op :: ops) l' = some (t.line p) ↔
        originOf outside (t.operate outside op) ops l' =
          some ((t.operate outside op).line p) := by
    rw [originOf_cons]
    constructor
    · rintro ⟨m, hm, hfrom⟩
      have hmline := ((h.operate hop).text hops' l' hl' m hm).1
      rw [(hmoves m hmline).mpr hfrom]
      exact hm
    · intro hm
      have hmline := ((h.operate hop).text hops' l' hl' _ hm).1
      exact ⟨_, hm, (hmoves _ hmline).mp rfl⟩
  constructor
  · intro hall
    exact ⟨(h.operate hop).text hops', fun l' hl' => (hall.place l' hl').trans (horigin l' hl')⟩
  · intro hall
    exact ⟨h.text hops, fun l' hl' => (hall.place l' hl').trans (horigin l' hl').symm⟩

/-- A placement stays anchored to its row of text over a whole run of prints, line feeds and
scrolls exactly when every scroll carries it along. -/
theorem run_anchored_iff (outside : Outside) {t : Terminal} (hsound : t.crosswords.Sound False)
    (hregion : t.crosswords.RegionOrdered) {key : ℕ × ℕ} {p : KittyPlacement}
    (hp : t.graphics.screen.kittyPlacements.lookup key = some p) (hline : t.HasLine (t.line p))
    {ops : List Op} (hops : ∀ op ∈ ops, Rolling op) :
    (∀ before after, ops = before ++ after → t.Anchored outside before key (t.line p)) ↔
      Permitted (operate outside) (fun t op =>
        (t.crosswords.shift outside.unicode op).Carries t.crosswords.grid (t.line p)) t ops := by
  have hrolled : t.Rolled := ⟨hsound, hregion⟩
  clear hsound hregion
  induction ops generalizing t with
  | nil =>
    refine iff_of_true (fun before after heq => ?_) trivial
    rw [(List.append_eq_nil_iff.mp heq.symm).1]
    exact anchored_nil hp
  | cons op ops ih =>
    have hop := hops op List.mem_cons_self
    have hops' (op' : Op) (hmem : op' ∈ ops) : Rolling op' :=
      hops op' (List.mem_cons_of_mem _ hmem)
    have hp' : (t.operate outside op).graphics.screen.kittyPlacements.lookup key = some p := by
      rwa [operate_graphics t hop]
    have hrest := ih hp' (hrolled.hasLine hop hline) hops' (hrolled.operate hop)
    constructor
    · intro hall
      have hfirst := hall [op] ops rfl
      have hstep : (t.crosswords.shift outside.unicode op).Carries t.crosswords.grid
          (t.line p) := by
        refine (hrolled.step_iff hop hline).mp fun l' hl' => ?_
        rw [← at_iff hp', ← Option.bind_some l' (t.crosswords.shift outside.unicode op).origin]
        exact hfirst.place l' hl'
      refine ⟨hstep, hrest.mp fun before after heq => ?_⟩
      have hlonger := hall (op :: before) after (by rw [heq, List.cons_append])
      have hops'' (op' : Op) (hmem : op' ∈ op :: before) : Rolling op' := by
        refine hops op' ?_
        rw [heq, ← List.cons_append]
        exact List.mem_append_left after hmem
      exact (hrolled.anchored_cons hops'' hline hstep).mp hlonger
    · rintro ⟨hstep, hpermitted⟩ before after heq
      have hall := hrest.mpr hpermitted
      cases before with
      | nil => exact anchored_nil hp
      | cons op' before =>
        obtain ⟨rfl, heq'⟩ := List.cons.inj heq
        have hops'' (op' : Op) (hmem : op' ∈ op :: before) : Rolling op' := by
          refine hops op' ?_
          rw [heq]
          exact List.mem_append_left after hmem
        exact (hrolled.anchored_cons hops'' hline hstep).mpr (hall before after heq')

/-- A placement of one cell at the origin of the screen. -/
def cornerPlacement : KittyPlacement := ⟨1, 1, 0, 0, 0, 0, 0, 0, 1, 1, 1, 1, 0, 0, 0, 0⟩

/-- A new terminal that has room for history, with a placement. -/
def withPlacement : Terminal :=
  { crosswords := .new 2 2 5
    graphics :=
      { screen :=
          { kittyPlacements :=
              (∅ : Table (ℕ × ℕ) KittyPlacement).insert (1, 1) cornerPlacement } } }

theorem run_anchored_scrolled :
    (∀ before after, [Op.scrollUp 1, .input 'a', .linefeed] = before ++ after →
        withPlacement.Anchored plainOutside before (1, 1) (withPlacement.line cornerPlacement)) ↔
      Permitted (operate plainOutside) (fun t op =>
        (t.crosswords.shift plainOutside.unicode op).Carries t.crosswords.grid
          (t.line cornerPlacement)) withPlacement [.scrollUp 1, .input 'a', .linefeed] := by
  have hline : withPlacement.HasLine (withPlacement.line cornerPlacement) := by
    unfold HasLine
    decide
  refine run_anchored_iff plainOutside (Crosswords.new_sound False (by decide) (by decide) 5)
    (by unfold RegionOrdered; decide) (by decide) hline fun op hop => ?_
  rw [List.mem_cons, List.mem_cons, List.mem_singleton] at hop
  obtain rfl | rfl | rfl := hop
  · trivial
  · trivial
  · trivial

/-- A terminal on its alternate screen, with an image placed on the first line. -/
def onAlternateScreen : Terminal :=
  run plainOutside (.new 2 2 5)
    [.op (.resize 3 2 1 1), .op (.setPrivateMode (.named .swapScreenAndSetRestoreCursor)),
      .ofText "Ga=T,i=1,p=1,f=24,s=1,v=1;/wAA"]

/-- The alternate screen has no history: its text scrolls away from under the placement. -/
theorem scroll_leaves_placement : onAlternateScreen.At (1, 1) 0 ∧
    ¬onAlternateScreen.Anchored plainOutside [.scrollUp 1] (1, 1) 0 := by
  have hbefore : (onAlternateScreen.graphics.screen.kittyPlacements.lookup (1, 1)).map
      onAlternateScreen.line = some 0 := by decide +kernel
  have hafter : ((onAlternateScreen.operate plainOutside (.scrollUp 1)
      ).graphics.screen.kittyPlacements.lookup (1, 1)).map
      (onAlternateScreen.operate plainOutside (.scrollUp 1)).line = some 0 := by decide +kernel
  have hline : (onAlternateScreen.operate plainOutside (.scrollUp 1)).HasLine 0 := by
    unfold HasLine
    decide +kernel
  have horigin : originOf plainOutside onAlternateScreen [.scrollUp 1] 0 = some 1 := by
    decide +kernel
  refine ⟨Option.map_eq_some_iff.mp hbefore, fun hanchored => ?_⟩
  have hplace := (hanchored.place 0 hline).mp (Option.map_eq_some_iff.mp hafter)
  rw [horigin] at hplace
  cases hplace

end Kitty.Terminal
end Rio
