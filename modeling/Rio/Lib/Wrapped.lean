import Mathlib.Data.List.DropRight
import Mathlib.Data.List.Flatten
import Mathlib.Tactic

/-! Text in rows of cells, some of which go on in the next row. -/
namespace Rio.Wrapped

universe u v
variable {α : Type u} {β : Type v}

/-- What a cell adds to a text. -/
inductive Item (α : Type u)
  | blank
  | ink (chars : List α)
  deriving DecidableEq, Repr

namespace Item

def isBlank : Item α → Bool
  | blank => true
  | ink _ => false

def chars (space : α) : Item α → List α
  | blank => [space]
  | ink chars => chars

/-- The characters without those of blanks. -/
def inked : Item α → List α
  | blank => []
  | ink chars => chars

end Item

/-- The cells of a row that are copied; the last row of a line does not wrap. -/
structure Piece (β : Type v) where
  cells : List β
  wraps : Bool
  deriving DecidableEq, Repr

def Piece.map {γ : Type u} (f : β → γ) (row : Piece β) : Piece γ := ⟨row.cells.map f, row.wraps⟩

/-- The lines that rows make up. -/
def logicalLines : List (Piece β) → List (List β)
  | [] => []
  | row :: rest =>
    if row.wraps then
      match logicalLines rest with
      | [] => [row.cells]
      | line :: lines => (row.cells ++ line) :: lines
    else row.cells :: logicalLines rest

/-- The text of a line, without the blanks at its end. -/
def lineText (space : α) (items : List (Item α)) : List α :=
  (items.rdropWhile Item.isBlank).flatMap (Item.chars space)

/-- Lines with newlines between them, without the empty ones at the end. -/
def joinLines (newline : α) (lines : List (List α)) : List α :=
  [newline].intercalate (lines.rdropWhile List.isEmpty)

/-! ### Holding blanks back -/

/-- The text of a row when `blanks` blanks come before it: blanks are held back until a character
follows. -/
def rowText (space : α) (blanks : ℕ) : List (Item α) → List α
  | [] => []
  | .blank :: rest => rowText space (blanks + 1) rest
  | .ink chars :: rest => List.replicate blanks space ++ chars ++ rowText space 0 rest

/-- The blanks that are held back after a row. -/
def pending (blanks : ℕ) : List (Item α) → ℕ
  | [] => blanks
  | .blank :: rest => pending (blanks + 1) rest
  | .ink _ :: rest => pending 0 rest

def Piece.Blank (row : Piece (Item α)) : Prop := ∀ item ∈ row.cells, item.isBlank = true

instance (row : Piece (Item α)) : Decidable row.Blank :=
  inferInstanceAs (Decidable (∀ item ∈ row.cells, item.isBlank = true))

/-- The text of rows, row by row: rows and cells that are blank are held back until something
follows. -/
def layout (space newline : α) : List (Piece (Item α)) → ℕ → ℕ → List α
  | [], _, _ => []
  | row :: rest, rows, blanks =>
    if row.Blank then
      layout space newline rest (rows + 1) (if row.wraps then pending blanks row.cells else 0)
    else
      List.replicate rows newline ++ rowText space blanks row.cells ++
        if row.wraps then layout space newline rest 0 (pending blanks row.cells)
        else newline :: layout space newline rest 0 0

/-- The text without a newline at its end. -/
def strip [DecidableEq α] (newline : α) (text : List α) : List α :=
  if text.getLast? = some newline then text.dropLast else text

/-! ### Rows -/

section Rows
variable {space : α} {blanks : ℕ} {items : List (Item α)}

theorem rdropWhile_append_of_not {p : β → Bool} {x : β} (h : ¬ p x = true) (l l' : List β) :
    (l ++ x :: l').rdropWhile p = l ++ x :: l'.rdropWhile p := by
  induction l' using List.reverseRecOn with
  | nil => rw [List.rdropWhile_concat_neg _ _ _ h, List.rdropWhile_nil]
  | append_singleton l' y ih =>
    have hassoc : l ++ x :: (l' ++ [y]) = (l ++ x :: l') ++ [y] := by
      rw [List.append_assoc, List.cons_append]
    rw [hassoc, List.rdropWhile_concat, List.rdropWhile_concat, ih]
    split_ifs
    · rfl
    · exact hassoc.symm

theorem rdropWhile_replicate {p : β → Bool} {x : β} (h : p x = true) (n : ℕ) :
    (List.replicate n x).rdropWhile p = [] := by
  rw [List.rdropWhile_eq_nil_iff]
  intro y hy
  rw [List.eq_of_mem_replicate hy, h]

theorem rowText_eq : rowText space blanks items =
    lineText space (List.replicate blanks .blank ++ items) := by
  unfold lineText
  induction items generalizing blanks with
  | nil =>
    rw [List.append_nil, rdropWhile_replicate rfl]
    rfl
  | cons item rest ih =>
    cases item with
    | blank =>
      rw [rowText, ih, List.replicate_succ', List.append_assoc, List.singleton_append]
    | ink chars =>
      rw [rowText, ih, rdropWhile_append_of_not Bool.false_ne_true, List.flatMap_append,
        List.flatMap_replicate]
      simp [Item.chars, List.flatMap_cons]

theorem lineText_eq_rowText : lineText space items = rowText space 0 items := by
  rw [rowText_eq]
  rfl

theorem rowText_append {items' : List (Item α)} :
    rowText space blanks (items ++ items') =
      rowText space blanks items ++ rowText space (pending blanks items) items' := by
  induction items generalizing blanks with
  | nil => rfl
  | cons item rest ih =>
    cases item with
    | blank => exact ih
    | ink chars =>
      show _ ++ rowText space 0 (rest ++ items') =
        (_ ++ rowText space 0 rest) ++ rowText space (pending 0 rest) items'
      rw [ih, List.append_assoc, List.append_assoc, List.append_assoc]

theorem rowText_of_blank (h : ∀ item ∈ items, item.isBlank = true) :
    rowText space blanks items = [] := by
  induction items generalizing blanks with
  | nil => rfl
  | cons item rest ih =>
    cases item with
    | blank => exact ih fun item hitem => h item (List.mem_cons_of_mem _ hitem)
    | ink chars => cases h _ List.mem_cons_self

theorem rowText_ne_nil (hink : ∀ item ∈ items, item ≠ .ink [])
    (h : ¬ ∀ item ∈ items, item.isBlank = true) : rowText space blanks items ≠ [] := by
  induction items generalizing blanks with
  | nil => exact absurd (fun _ hitem => by cases hitem) h
  | cons item rest ih =>
    cases item with
    | blank =>
      refine ih (fun item hitem => hink item (List.mem_cons_of_mem _ hitem)) fun hall => h ?_
      intro item hitem
      obtain rfl | hitem := List.mem_cons.mp hitem
      · rfl
      · exact hall item hitem
    | ink chars =>
      have hne : chars ≠ [] := fun heq => hink (.ink chars) List.mem_cons_self (by rw [heq])
      rw [rowText]
      simp [hne]

/-- What is not a space in the text of a row comes from its characters. -/
theorem count_rowText [DecidableEq α] {c : α} (hc : c ≠ space) :
    (rowText space blanks items).count c = (items.map fun item => item.inked.count c).sum := by
  induction items generalizing blanks with
  | nil => rfl
  | cons item rest ih =>
    cases item with
    | blank =>
      rw [rowText, ih, List.map_cons, List.sum_cons]
      exact (Nat.zero_add _).symm
    | ink chars =>
      rw [rowText, List.count_append, List.count_append, ih, List.count_replicate,
        if_neg (by simpa using hc.symm), Nat.zero_add, List.map_cons, List.sum_cons]
      rfl

/-- Blanks before a row that is not blank are spaces. -/
theorem rowText_blanks (h : ¬ ∀ item ∈ items, item.isBlank = true) :
    rowText space blanks items = List.replicate blanks space ++ rowText space 0 items := by
  induction items generalizing blanks with
  | nil => exact absurd (fun _ hitem => by cases hitem) h
  | cons item rest ih =>
    cases item with
    | blank =>
      have hrest : ¬ ∀ item ∈ rest, item.isBlank = true :=
        fun hall => h (List.forall_mem_cons.mpr ⟨rfl, hall⟩)
      rw [rowText, rowText, @ih (blanks + 1) hrest, @ih (0 + 1) hrest, List.replicate_succ',
        List.append_assoc]
      rfl
    | ink chars =>
      rw [rowText, rowText, List.replicate_zero, List.nil_append, List.append_assoc]

theorem mem_rowText {c : α} (h : c ∈ rowText space blanks items) :
    c = space ∨ ∃ item ∈ items, c ∈ item.inked := by
  induction items generalizing blanks with
  | nil => cases h
  | cons item rest ih =>
    cases item with
    | blank =>
      obtain hspace | ⟨item, hitem, hc⟩ := ih h
      · exact .inl hspace
      · exact .inr ⟨item, List.mem_cons_of_mem _ hitem, hc⟩
    | ink chars =>
      rw [rowText, List.mem_append, List.mem_append] at h
      obtain (h | h) | h := h
      · exact .inl (List.eq_of_mem_replicate h)
      · exact .inr ⟨_, List.mem_cons_self, h⟩
      · obtain hspace | ⟨item, hitem, hc⟩ := ih h
        · exact .inl hspace
        · exact .inr ⟨item, List.mem_cons_of_mem _ hitem, hc⟩

end Rows

/-! ### Documents -/

section Documents
variable {space newline : α} {blanks rowCount : ℕ} {row : Piece (Item α)}
  {rows rest : List (Piece (Item α))}

/-- All rows are blank. -/
def AllBlank (rows : List (Piece (Item α))) : Prop := ∀ row ∈ rows, row.Blank

instance (rows : List (Piece (Item α))) : Decidable (AllBlank rows) :=
  inferInstanceAs (Decidable (∀ row ∈ rows, row.Blank))

/-- The lines of rows with `blanks` blanks before them. -/
def texts (space : α) : ℕ → List (Piece (Item α)) → List (List α)
  | _, [] => []
  | blanks, row :: rest =>
    if row.wraps then
      match texts space (pending blanks row.cells) rest with
      | [] => [rowText space blanks row.cells]
      | text :: texts => (rowText space blanks row.cells ++ text) :: texts
    else rowText space blanks row.cells :: texts space 0 rest

theorem texts_eq : texts space blanks rows = match logicalLines rows with
    | [] => []
    | line :: lines => rowText space blanks line :: lines.map (lineText space) := by
  induction rows generalizing blanks with
  | nil => rfl
  | cons row rest ih =>
    unfold texts logicalLines
    by_cases hwraps : row.wraps = true
    · rw [if_pos hwraps, if_pos hwraps, ih]
      cases logicalLines rest with
      | nil => rfl
      | cons line lines =>
        dsimp only
        rw [rowText_append]
    · rw [if_neg hwraps, if_neg hwraps, ih]
      cases logicalLines rest with
      | nil => rfl
      | cons line lines =>
        dsimp only
        rw [List.map_cons, lineText_eq_rowText]

theorem rdropWhile_cons {p : β → Bool} (x : β) (l : List β) :
    (x :: l).rdropWhile p =
      if ∀ y ∈ l, p y = true then if p x then [] else [x] else x :: l.rdropWhile p := by
  induction l using List.reverseRecOn with
  | nil =>
    rw [if_pos (fun y hy => by cases hy)]
    exact List.rdropWhile_singleton _ _
  | append_singleton l y ih =>
    have hassoc : x :: (l ++ [y]) = (x :: l) ++ [y] := rfl
    rw [hassoc, List.rdropWhile_concat, List.rdropWhile_concat, ih]
    by_cases hy : p y = true
    · rw [if_pos hy, if_pos hy]
      refine if_congr ?_ rfl rfl
      constructor
      · intro hall z hz
        obtain hz | hz := List.mem_append.mp hz
        · exact hall z hz
        · rw [List.mem_singleton.mp hz, hy]
      · exact fun hall z hz => hall z (List.mem_append_left _ hz)
    · have hnot : ¬ ∀ z ∈ l ++ [y], p z = true :=
        fun hall => hy (hall y (List.mem_append_right _ (List.mem_singleton.mpr rfl)))
      rw [if_neg hy, if_neg hy, if_neg hnot]
      rfl

theorem joinLines_cons (line : List α) (lines : List (List α)) :
    joinLines newline (line :: lines) =
      line ++ if ∀ line ∈ lines, line = [] then [] else newline :: joinLines newline lines := by
  have hempty : (∀ line ∈ lines, line.isEmpty = true) ↔ ∀ line ∈ lines, line = [] := by
    simp only [List.isEmpty_iff]
  unfold joinLines
  rw [rdropWhile_cons]
  by_cases hall : ∀ line ∈ lines, line = []
  · rw [if_pos (hempty.mpr hall), if_pos hall, List.append_nil]
    cases line with
    | nil => rfl
    | cons c chars => exact List.append_nil _
  · rw [if_neg (mt hempty.mp hall), if_neg hall]
    cases hrest : lines.rdropWhile List.isEmpty with
    | nil =>
      rw [List.rdropWhile_eq_nil_iff] at hrest
      exact absurd (hempty.mp hrest) hall
    | cons first others => rfl

/-- Rows with nothing on them are lines with nothing on them. -/
theorem texts_nil_iff (hink : ∀ row ∈ rows, ∀ item ∈ row.cells, item ≠ .ink []) :
    (∀ text ∈ texts space blanks rows, text = []) ↔ AllBlank rows := by
  induction rows generalizing blanks with
  | nil => exact iff_of_true (fun _ h => by cases h) fun _ h => by cases h
  | cons row rest ih =>
    have hrest := fun blanks => @ih blanks fun row hrow => hink row (List.mem_cons_of_mem _ hrow)
    have hrow : rowText space blanks row.cells = [] ↔ row.Blank := by
      refine ⟨fun hnil => ?_, rowText_of_blank⟩
      by_contra hblank
      exact rowText_ne_nil (hink row List.mem_cons_self) hblank hnil
    have hall : AllBlank (row :: rest) ↔ row.Blank ∧ AllBlank rest := List.forall_mem_cons
    rw [hall, ← hrow]
    unfold texts
    by_cases hwraps : row.wraps = true
    · rw [if_pos hwraps, ← hrest (pending blanks row.cells)]
      cases texts space (pending blanks row.cells) rest with
      | nil => simp
      | cons text texts =>
        simp only [List.forall_mem_cons, List.append_eq_nil_iff, and_assoc]
    · rw [if_neg hwraps, ← hrest 0, List.forall_mem_cons]

theorem layout_of_allBlank (h : AllBlank rows) : layout space newline rows rowCount blanks = [] := by
  induction rows generalizing rowCount blanks with
  | nil => rfl
  | cons row rest ih =>
    obtain ⟨hrow, hrest⟩ := List.forall_mem_cons.mp h
    rw [layout, if_pos hrow, ih hrest]

/-- Blank rows before a text are newlines. -/
theorem layout_rows (h : ¬ AllBlank rows) : layout space newline rows rowCount blanks =
    List.replicate rowCount newline ++ layout space newline rows 0 blanks := by
  induction rows generalizing rowCount blanks with
  | nil => exact absurd (fun _ hrow => by cases hrow) h
  | cons row rest ih =>
    rw [layout, layout]
    by_cases hrow : row.Blank
    · have hrest : ¬ AllBlank rest := fun hrest => h (List.forall_mem_cons.mpr ⟨hrow, hrest⟩)
      rw [if_pos hrow, if_pos hrow, @ih _ (rowCount + 1) hrest, @ih _ (0 + 1) hrest,
        List.replicate_succ', List.append_assoc]
      rfl
    · rw [if_neg hrow, if_neg hrow]
      simp only [List.replicate_zero, List.nil_append, List.append_assoc]

theorem layout_ne_nil (hink : ∀ row ∈ rows, ∀ item ∈ row.cells, item ≠ .ink [])
    (h : ¬ AllBlank rows) : layout space newline rows rowCount blanks ≠ [] := by
  induction rows generalizing rowCount blanks with
  | nil => exact absurd (fun _ hrow => by cases hrow) h
  | cons row rest ih =>
    rw [layout]
    by_cases hrow : row.Blank
    · have hrest : ¬ AllBlank rest := fun hrest => h (List.forall_mem_cons.mpr ⟨hrow, hrest⟩)
      rw [if_pos hrow]
      exact ih (fun row hrow => hink row (List.mem_cons_of_mem _ hrow)) hrest
    · rw [if_neg hrow]
      have hne : rowText space blanks row.cells ≠ [] :=
        rowText_ne_nil (hink row List.mem_cons_self) hrow
      simp [hne]

end Documents

/-! ### Rows and lines -/

/-- The item has characters, none of which ends a line, or is blank. -/
def Item.Clean (newline : α) (item : Item α) : Prop := item ≠ .ink [] ∧ newline ∉ item.inked

def Clean (newline : α) (rows : List (Piece (Item α))) : Prop :=
  ∀ row ∈ rows, ∀ item ∈ row.cells, item.Clean newline

/-- A blank row that wraps is followed by blank rows only. -/
def NoBlankWraps (rows : List (Piece (Item α))) : Prop :=
  rows.Pairwise fun row later => row.wraps = true → row.Blank → later.Blank

section Lines
variable {space newline : α} {blanks : ℕ} {row : Piece (Item α)} {rows rest : List (Piece (Item α))}

theorem not_mem_rowText (hspace : newline ≠ space) (hclean : ∀ item ∈ row.cells, item.Clean newline) :
    newline ∉ rowText space blanks row.cells := by
  intro hmem
  obtain heq | ⟨item, hitem, hc⟩ := mem_rowText hmem
  · exact hspace heq
  · exact (hclean item hitem).2 hc

theorem joinLines_wraps (hwraps : row.wraps = true) :
    joinLines newline (texts space blanks (row :: rest)) =
      rowText space blanks row.cells ++
        joinLines newline (texts space (pending blanks row.cells) rest) := by
  rw [texts, if_pos hwraps]
  cases texts space (pending blanks row.cells) rest with
  | nil =>
    rw [joinLines_cons, if_pos fun _ h => by cases h]
    rfl
  | cons text texts =>
    dsimp only
    rw [joinLines_cons, joinLines_cons, List.append_assoc]

theorem joinLines_ends (hclean : Clean newline rest) (hwraps : ¬ row.wraps = true) :
    joinLines newline (texts space blanks (row :: rest)) =
      rowText space blanks row.cells ++ if AllBlank rest then [] else
        newline :: joinLines newline (texts space 0 rest) := by
  rw [texts, if_neg hwraps, joinLines_cons]
  have hnil : (∀ text ∈ texts space 0 rest, text = []) ↔ AllBlank rest :=
    texts_nil_iff fun row hrow item hitem => (hclean row hrow item hitem).1
  rw [if_congr hnil rfl rfl]

theorem joinLines_of_allBlank (hclean : Clean newline rows) (h : AllBlank rows) :
    joinLines newline (texts space blanks rows) = [] := by
  have hnil : ∀ text ∈ texts space blanks rows, text = [] :=
    (texts_nil_iff fun row hrow item hitem => (hclean row hrow item hitem).1).mpr h
  unfold joinLines
  rw [List.rdropWhile_eq_nil_iff.mpr fun text htext => List.isEmpty_iff.mpr (hnil text htext)]
  rfl

variable [DecidableEq α]

theorem strip_append {text text' : List α} (h : text' ≠ []) :
    strip newline (text ++ text') = text ++ strip newline text' := by
  unfold strip
  rw [List.getLast?_append_of_ne_nil _ h, List.dropLast_append_of_ne_nil h]
  split_ifs
  · rfl
  · rfl

theorem strip_of_not_mem {text : List α} (h : newline ∉ text) : strip newline text = text :=
  if_neg fun hlast => h (List.mem_of_getLast? hlast)

theorem strip_newline (text : List α) : strip newline (text ++ [newline]) = text := by
  unfold strip
  rw [if_pos List.getLast?_concat, List.dropLast_concat]

/-- The text that is laid out row by row. -/
def code (space newline : α) (rows : List (Piece (Item α))) (blanks : ℕ) : List α :=
  strip newline (layout space newline rows 0 blanks)

theorem code_of_allBlank (h : AllBlank rows) : code space newline rows blanks = [] := by
  unfold code
  rw [layout_of_allBlank h]
  rfl

theorem code_cons_blank (hclean : Clean newline rest) (hrow : row.Blank) :
    code space newline (row :: rest) blanks = if AllBlank rest then [] else
      newline :: code space newline rest (if row.wraps then pending blanks row.cells else 0) := by
  unfold code
  rw [layout, if_pos hrow]
  by_cases hrest : AllBlank rest
  · rw [if_pos hrest, layout_of_allBlank hrest]
    rfl
  · rw [if_neg hrest, layout_rows hrest]
    exact strip_append (layout_ne_nil (fun row hrow item hitem => (hclean row hrow item hitem).1) hrest)

theorem code_cons_content (hspace : newline ≠ space) (hclean : Clean newline (row :: rest))
    (hrow : ¬ row.Blank) : code space newline (row :: rest) blanks =
      rowText space blanks row.cells ++ if AllBlank rest then [] else
        if row.wraps then code space newline rest (pending blanks row.cells)
        else newline :: code space newline rest 0 := by
  obtain ⟨hfirst, hothers⟩ := List.forall_mem_cons.mp hclean
  have hnil : strip newline (rowText space blanks row.cells) = rowText space blanks row.cells :=
    strip_of_not_mem (not_mem_rowText hspace hfirst)
  unfold code
  rw [layout, if_neg hrow, List.replicate_zero, List.nil_append]
  by_cases hrest : AllBlank rest
  · rw [if_pos hrest, layout_of_allBlank hrest, layout_of_allBlank hrest, List.append_nil]
    by_cases hwraps : row.wraps = true
    · rw [if_pos hwraps, List.append_nil, hnil]
    · rw [if_neg hwraps, strip_newline]
  · rw [if_neg hrest]
    have hne (blanks : ℕ) : layout space newline rest 0 blanks ≠ [] :=
      layout_ne_nil (fun row hrow item hitem => (hothers row hrow item hitem).1) hrest
    by_cases hwraps : row.wraps = true
    · rw [if_pos hwraps, if_pos hwraps, strip_append (hne _)]
    · rw [if_neg hwraps, if_neg hwraps, strip_append (List.cons_ne_nil _ _)]
      exact congrArg _ (strip_append (hne 0) : strip newline ([newline] ++ _) = _)

/-- Lines never have more newlines than their rows. -/
theorem count_joinLines_le (hspace : newline ≠ space) (hclean : Clean newline rows) :
    (joinLines newline (texts space blanks rows)).count newline ≤
      (code space newline rows blanks).count newline := by
  induction rows generalizing blanks with
  | nil => exact le_rfl
  | cons row rest ih =>
    obtain ⟨hfirst, hothers⟩ := List.forall_mem_cons.mp hclean
    have hrest (blanks : ℕ) := @ih blanks hothers
    by_cases hall : AllBlank rest
    · have hnil (blanks : ℕ) : joinLines newline (texts space blanks rest) = [] :=
        joinLines_of_allBlank hothers hall
      have htext : joinLines newline (texts space blanks (row :: rest)) =
          rowText space blanks row.cells := by
        by_cases hwraps : row.wraps = true
        · rw [joinLines_wraps hwraps, hnil, List.append_nil]
        · rw [joinLines_ends hothers hwraps, if_pos hall, List.append_nil]
      rw [htext, List.count_eq_zero_of_not_mem (not_mem_rowText hspace hfirst)]
      exact Nat.zero_le _
    · by_cases hrow : row.Blank
      · rw [code_cons_blank hothers hrow, if_neg hall, List.count_cons_self]
        by_cases hwraps : row.wraps = true
        · rw [joinLines_wraps hwraps, rowText_of_blank hrow, List.nil_append, if_pos hwraps]
          exact (hrest _).trans (Nat.le_succ _)
        · rw [joinLines_ends hothers hwraps, rowText_of_blank hrow, List.nil_append, if_neg hall,
            if_neg hwraps, List.count_cons_self]
          exact Nat.succ_le_succ (hrest 0)
      · rw [code_cons_content hspace hclean hrow, if_neg hall, List.count_append]
        by_cases hwraps : row.wraps = true
        · rw [joinLines_wraps hwraps, List.count_append, if_pos hwraps]
          exact Nat.add_le_add_left (hrest _) _
        · rw [joinLines_ends hothers hwraps, List.count_append, if_neg hall, if_neg hwraps,
            List.count_cons_self, List.count_cons_self]
          exact Nat.add_le_add_left (Nat.succ_le_succ (hrest 0)) _

/-- Rows give the text of their lines unless a blank row wraps into a text. -/
theorem code_eq_iff (hspace : newline ≠ space) (hclean : Clean newline rows) :
    code space newline rows blanks = joinLines newline (texts space blanks rows) ↔
      NoBlankWraps rows := by
  induction rows generalizing blanks with
  | nil => exact iff_of_true rfl List.Pairwise.nil
  | cons row rest ih =>
    obtain ⟨hfirst, hothers⟩ := List.forall_mem_cons.mp hclean
    have hrest (blanks : ℕ) := @ih blanks hothers
    unfold NoBlankWraps at hrest ⊢
    rw [List.pairwise_cons]
    by_cases hall : AllBlank rest
    · have hnone : rest.Pairwise fun row later => row.wraps = true → row.Blank → later.Blank :=
        List.pairwise_of_forall_mem_list fun _ _ later hlater _ _ => hall later hlater
      refine iff_of_true ?_ ⟨fun later hlater _ _ => hall later hlater, hnone⟩
      have htext : joinLines newline (texts space blanks (row :: rest)) =
          rowText space blanks row.cells := by
        by_cases hwraps : row.wraps = true
        · rw [joinLines_wraps hwraps, joinLines_of_allBlank hothers hall, List.append_nil]
        · rw [joinLines_ends hothers hwraps, if_pos hall, List.append_nil]
      rw [htext]
      by_cases hrow : row.Blank
      · rw [code_cons_blank hothers hrow, if_pos hall, rowText_of_blank hrow]
      · rw [code_cons_content hspace hclean hrow, if_pos hall, List.append_nil]
    · obtain ⟨content, hmem, hcontent⟩ : ∃ row ∈ rest, ¬ row.Blank := by
        unfold AllBlank at hall
        push Not at hall
        exact hall
      by_cases hrow : row.Blank
      · rw [code_cons_blank hothers hrow, if_neg hall]
        by_cases hwraps : row.wraps = true
        · rw [joinLines_wraps hwraps, rowText_of_blank hrow, List.nil_append, if_pos hwraps]
          refine iff_of_false (fun heq => ?_) fun hnone =>
            hcontent (hnone.1 content hmem hwraps hrow)
          have hcount := congrArg (List.count newline) heq
          have hle : _ ≤ (code space newline rest (pending blanks row.cells)).count newline :=
            count_joinLines_le hspace hothers
          rw [List.count_cons_self] at hcount
          omega
        · rw [joinLines_ends hothers hwraps, rowText_of_blank hrow, List.nil_append, if_neg hall,
            if_neg hwraps, ← hrest 0]
          constructor
          · intro heq
            exact ⟨fun later hlater hwraps' => absurd hwraps' hwraps, (List.cons.inj heq).2⟩
          · exact fun hnone => congrArg _ hnone.2
      · rw [code_cons_content hspace hclean hrow, if_neg hall]
        have hnone : ∀ later ∈ rest, row.wraps = true → row.Blank → later.Blank :=
          fun later _ _ hblank => absurd hblank hrow
        rw [and_iff_right hnone]
        by_cases hwraps : row.wraps = true
        · rw [joinLines_wraps hwraps, if_pos hwraps, List.append_cancel_left_eq]
          exact hrest _
        · rw [joinLines_ends hothers hwraps, if_neg hall, if_neg hwraps,
            List.append_cancel_left_eq, List.cons.injEq, ← hrest 0]
          exact and_iff_right rfl

end Lines

/-! ### Cells that are not read as they are shown -/

section Reading
variable {space newline nul : α} {read shown : β → Item α} {cell : β} {line : List β}
  {lines : List (List β)} {rows : List (Piece β)} {blanks : ℕ}

/-- A cell that is not read as it is shown has a cell after it that is not blank. -/
def Trimmed (read shown : β → Item α) : List β → Prop
  | [] => True
  | cell :: rest =>
    (read cell = shown cell ∨ ∃ later ∈ rest, shown later ≠ .blank) ∧ Trimmed read shown rest

theorem logicalLines_map {γ : Type u} (f : β → γ) : logicalLines (rows.map (Piece.map f)) =
    (logicalLines rows).map (List.map f) := by
  induction rows with
  | nil => rfl
  | cons row rest ih =>
    rw [List.map_cons, logicalLines, logicalLines, ih]
    by_cases hwraps : row.wraps = true
    · have hwraps' : (row.map f).wraps = true := hwraps
      rw [if_pos hwraps, if_pos hwraps']
      cases logicalLines rest with
      | nil => rfl
      | cons line lines =>
        rw [List.map_cons, List.map_cons, List.map_append]
        rfl
    · have hwraps' : ¬ (row.map f).wraps = true := hwraps
      rw [if_neg hwraps, if_neg hwraps']
      rfl

/-- Lines have the cells of their rows. -/
theorem flatten_logicalLines : (logicalLines rows).flatten = rows.flatMap Piece.cells := by
  induction rows with
  | nil => rfl
  | cons row rest ih =>
    rw [logicalLines, List.flatMap_cons, ← ih]
    by_cases hwraps : row.wraps = true
    · rw [if_pos hwraps]
      cases logicalLines rest with
      | nil => rfl
      | cons line lines =>
        dsimp only
        rw [List.flatten_cons, List.flatten_cons, List.append_assoc]
    · rw [if_neg hwraps]
      rfl

/-- Rows that do not wrap are lines. -/
theorem logicalLines_of_ends (h : ∀ row ∈ rows, row.wraps = false) :
    logicalLines rows = rows.map Piece.cells := by
  induction rows with
  | nil => rfl
  | cons row rest ih =>
    obtain ⟨hrow, hrest⟩ := List.forall_mem_cons.mp h
    rw [logicalLines, hrow, if_neg Bool.false_ne_true, ih hrest, List.map_cons]

theorem intercalate_concat (lines : List (List α)) (line : List α) :
    [newline].intercalate (lines ++ [line]) = (lines.flatMap fun line => line ++ [newline]) ++ line := by
  induction lines with
  | nil => exact List.intercalate_singleton
  | cons first others ih =>
    rw [List.flatMap_cons, List.append_assoc, ← ih]
    cases others with
    | nil => exact List.intercalate_cons_cons
    | cons second others => exact List.intercalate_cons_cons

theorem mem_intercalate {lines : List (List α)} {c : α} (h : c ∈ [newline].intercalate lines) :
    c = newline ∨ ∃ line ∈ lines, c ∈ line := by
  induction lines with
  | nil => cases h
  | cons first others ih =>
    cases others with
    | nil =>
      rw [List.intercalate_singleton] at h
      exact .inr ⟨first, List.mem_cons_self, h⟩
    | cons second others =>
      rw [List.intercalate_cons_cons, List.mem_append, List.mem_append] at h
      obtain (h | h) | h := h
      · exact .inr ⟨first, List.mem_cons_self, h⟩
      · exact .inl (List.mem_singleton.mp h)
      · obtain heq | ⟨line, hline, hc⟩ := ih h
        · exact .inl heq
        · exact .inr ⟨line, List.mem_cons_of_mem _ hline, hc⟩

theorem mem_joinLines {lines : List (List α)} {c : α} (h : c ∈ joinLines newline lines) :
    c = newline ∨ ∃ line ∈ lines, c ∈ line := by
  obtain heq | ⟨line, hline, hc⟩ := mem_intercalate h
  · exact .inl heq
  · exact .inr ⟨line, (List.rdropWhile_prefix _ _).subset hline, hc⟩

variable [DecidableEq α]

/-- The cell is read with a character that it does not show. -/
def Stray (nul : α) (read shown : β → Item α) (cell : β) : Prop :=
  (shown cell).inked.count nul < (read cell).inked.count nul

/-- A cell is read as it is shown, a blank as a space, or with a character that it does not
show. -/
def Reads (space nul : α) (read shown : β → Item α) (cell : β) : Prop :=
  read cell = shown cell ∨ (read cell = .ink [space] ∧ shown cell = .blank) ∨
    Stray nul read shown cell

theorem Reads.count_le (h : Reads space nul read shown cell) :
    (shown cell).inked.count nul ≤ (read cell).inked.count nul := by
  obtain heq | ⟨-, hblank⟩ | hstray := h
  · rw [heq]
  · rw [hblank]
    exact Nat.zero_le _
  · exact hstray.le

omit [DecidableEq α] in
/-- A line that is read with spaces for blanks is not shorter than what it shows, and longer where
it ends with such a space. -/
theorem rowText_read (h : ∀ cell ∈ line, read cell = shown cell ∨
      read cell = .ink [space] ∧ shown cell = .blank) :
    (rowText space blanks (line.map shown)).length ≤
        (rowText space blanks (line.map read)).length ∧
      ((rowText space blanks (line.map read)).length =
        (rowText space blanks (line.map shown)).length → Trimmed read shown line) ∧
      (Trimmed read shown line →
        rowText space blanks (line.map read) = rowText space blanks (line.map shown)) := by
  induction line generalizing blanks with
  | nil => exact ⟨le_rfl, fun _ => trivial, fun _ => rfl⟩
  | cons cell rest ih =>
    obtain ⟨hcell, hrest⟩ := List.forall_mem_cons.mp h
    rw [List.map_cons, List.map_cons]
    obtain heq | ⟨hspace, hblank⟩ := hcell
    · rw [heq]
      cases hshown : shown cell with
      | blank =>
        obtain ⟨hle, hlength, htext⟩ := @ih (blanks + 1) hrest
        exact ⟨hle, fun heq' => ⟨.inl heq, hlength heq'⟩, fun htrimmed => htext htrimmed.2⟩
      | ink chars =>
        obtain ⟨hle, hlength, htext⟩ := @ih 0 hrest
        rw [rowText, rowText]
        refine ⟨?_, fun heq' => ⟨.inl heq, hlength ?_⟩, fun htrimmed => ?_⟩
        · simp only [List.length_append]
          omega
        · simp only [List.length_append] at heq'
          omega
        · rw [htext htrimmed.2]
    · obtain ⟨hle, hlength, htext⟩ := @ih 0 hrest
      rw [hspace, hblank, rowText, rowText]
      by_cases hall : ∀ item ∈ rest.map shown, item.isBlank = true
      · have hnone : ¬ Trimmed read shown (cell :: rest) := by
          rintro ⟨heq | ⟨later, hlater, hne⟩, -⟩
          · rw [hspace, hblank] at heq
            cases heq
          · have hblank' := hall _ (List.mem_map_of_mem hlater)
            cases hshown : shown later with
            | blank => exact hne hshown
            | ink chars =>
              rw [hshown] at hblank'
              cases hblank'
        rw [rowText_of_blank hall]
        refine ⟨Nat.zero_le _, fun heq => ?_, fun htrimmed => absurd htrimmed hnone⟩
        simp at heq
      · have hsome : ∃ later ∈ rest, shown later ≠ .blank := by
          by_contra hnone
          push Not at hnone
          refine hall fun item hitem => ?_
          obtain ⟨later, hlater, rfl⟩ := List.mem_map.mp hitem
          rw [hnone later hlater]
          rfl
        rw [rowText_blanks hall, List.replicate_succ']
        refine ⟨?_, fun heq => ⟨.inr hsome, hlength ?_⟩, fun htrimmed => ?_⟩
        · simp only [List.length_append]
          omega
        · simp only [List.length_append] at heq
          omega
        · rw [htext htrimmed.2]

omit [DecidableEq α] in
theorem sum_eq_iff {f g : β → ℕ} {l : List β} (h : ∀ x ∈ l, g x ≤ f x) :
    (l.map f).sum = (l.map g).sum ↔ ∀ x ∈ l, f x = g x := by
  induction l with
  | nil => exact iff_of_true rfl fun x hx => by cases hx
  | cons x l ih =>
    obtain ⟨hx, hl⟩ := List.forall_mem_cons.mp h
    have hle : (l.map g).sum ≤ (l.map f).sum := List.sum_le_sum hl
    rw [List.map_cons, List.map_cons, List.sum_cons, List.sum_cons, List.forall_mem_cons, ← ih hl]
    omega

theorem count_lines (hnul : nul ≠ space) (read : β → Item α) :
    ((lines.map fun line => lineText space (line.map read)).flatten).count nul =
      (lines.flatten.map fun cell => (read cell).inked.count nul).sum := by
  induction lines with
  | nil => rfl
  | cons line lines ih =>
    rw [List.map_cons, List.flatten_cons, List.count_append, ih, List.flatten_cons, List.map_append,
      List.sum_append, lineText_eq_rowText, count_rowText hnul, List.map_map]
    rfl

theorem Reads.eq_or (h : Reads space nul read shown cell) (hstray : ¬ Stray nul read shown cell) :
    read cell = shown cell ∨ read cell = .ink [space] ∧ shown cell = .blank := by
  obtain heq | hspace | hbad := h
  · exact .inl heq
  · exact .inr hspace
  · exact absurd hbad hstray

theorem lines_eq (h : ∀ line ∈ lines, ∀ cell ∈ line, Reads space nul read shown cell)
    (hall : ∀ line ∈ lines, (∀ cell ∈ line, ¬ Stray nul read shown cell) ∧
      Trimmed read shown line) :
    (lines.map fun line => lineText space (line.map read)) =
      lines.map fun line => lineText space (line.map shown) := by
  refine List.map_congr_left fun line hline => ?_
  have hcells : ∀ cell ∈ line, read cell = shown cell ∨
      read cell = .ink [space] ∧ shown cell = .blank :=
    fun cell hcell => (h line hline cell hcell).eq_or ((hall line hline).1 cell hcell)
  rw [lineText_eq_rowText, lineText_eq_rowText]
  exact (rowText_read hcells).2.2 (hall line hline).2

/-- Lines are read as they are shown when no cell is read with a character of another, and no line
ends with a blank that is read as a space. -/
theorem lines_eq_iff (hnul : nul ≠ space)
    (h : ∀ line ∈ lines, ∀ cell ∈ line, Reads space nul read shown cell) :
    (lines.map fun line => lineText space (line.map read)).flatten =
        (lines.map fun line => lineText space (line.map shown)).flatten ↔
      ∀ line ∈ lines, (∀ cell ∈ line, ¬ Stray nul read shown cell) ∧
        Trimmed read shown line := by
  have hcells : ∀ cell ∈ lines.flatten, Reads space nul read shown cell := by
    intro cell hcell
    obtain ⟨line, hline, hcell⟩ := List.mem_flatten.mp hcell
    exact h line hline cell hcell
  have hclean (line : List β) (hline : line ∈ lines)
      (hstray : ∀ cell ∈ line, ¬ Stray nul read shown cell) :
      ∀ cell ∈ line, read cell = shown cell ∨ read cell = .ink [space] ∧ shown cell = .blank :=
    fun cell hcell => (h line hline cell hcell).eq_or (hstray cell hcell)
  constructor
  · intro heq
    have hcount := congrArg (List.count nul) heq
    rw [count_lines hnul, count_lines hnul, sum_eq_iff fun cell hcell => (hcells cell hcell).count_le]
      at hcount
    have hstray (line : List β) (hline : line ∈ lines) : ∀ cell ∈ line,
        ¬ Stray nul read shown cell := by
      intro cell hcell hbad
      exact hbad.ne' (hcount cell (List.mem_flatten.mpr ⟨line, hline, hcell⟩))
    have hlength := congrArg List.length heq
    rw [List.length_flatten, List.length_flatten, List.map_map, List.map_map] at hlength
    have hlines := (sum_eq_iff fun line hline => ?_).mp hlength
    · intro line hline
      refine ⟨hstray line hline, ?_⟩
      have hline' := hlines line hline
      simp only [Function.comp, lineText_eq_rowText] at hline'
      exact (rowText_read (hclean line hline (hstray line hline))).2.1 hline'
    · simp only [Function.comp, lineText_eq_rowText]
      exact (rowText_read (hclean line hline (hstray line hline))).1
  · exact fun hall => congrArg List.flatten (lines_eq h hall)

/-! ### Texts without their newlines -/

theorem filter_of_not_mem {text : List α} (h : newline ∉ text) :
    text.filter (· ≠ newline) = text := by
  rw [List.filter_eq_self]
  intro c hc
  exact decide_eq_true fun heq => h (heq ▸ hc)

theorem filter_joinLines {lines : List (List α)} (h : ∀ line ∈ lines, newline ∉ line) :
    (joinLines newline lines).filter (· ≠ newline) = lines.flatten := by
  induction lines with
  | nil => rfl
  | cons line lines ih =>
    obtain ⟨hline, hlines⟩ := List.forall_mem_cons.mp h
    rw [joinLines_cons, List.filter_append, filter_of_not_mem hline, List.flatten_cons, ← ih hlines]
    by_cases hall : ∀ line ∈ lines, line = []
    · rw [if_pos hall]
      have hflat : lines.flatten = [] := List.flatten_eq_nil_iff.mpr hall
      rw [ih hlines, hflat]
      rfl
    · rw [if_neg hall, List.filter_cons_of_neg (by simp)]

theorem filter_code {rows : List (Piece (Item α))} (hspace : newline ≠ space)
    (hclean : Clean newline rows) :
    (code space newline rows blanks).filter (· ≠ newline) = (texts space blanks rows).flatten := by
  induction rows generalizing blanks with
  | nil => rfl
  | cons row rest ih =>
    obtain ⟨hfirst, hothers⟩ := List.forall_mem_cons.mp hclean
    have hrest (blanks : ℕ) := @ih blanks hothers
    have hflat : (texts space blanks (row :: rest)).flatten = rowText space blanks row.cells ++
        (texts space (if row.wraps then pending blanks row.cells else 0) rest).flatten := by
      rw [texts]
      by_cases hwraps : row.wraps = true
      · rw [if_pos hwraps, if_pos hwraps]
        cases texts space (pending blanks row.cells) rest with
        | nil => rfl
        | cons text texts =>
          dsimp only
          rw [List.flatten_cons, List.flatten_cons, List.append_assoc]
      · rw [if_neg hwraps, if_neg hwraps, List.flatten_cons]
    rw [hflat, ← hrest]
    have htext : (rowText space blanks row.cells).filter (· ≠ newline) =
        rowText space blanks row.cells := filter_of_not_mem (not_mem_rowText hspace hfirst)
    by_cases hrow : row.Blank
    · rw [code_cons_blank hothers hrow, rowText_of_blank hrow, List.nil_append]
      by_cases hall : AllBlank rest
      · rw [if_pos hall, code_of_allBlank hall]
      · rw [if_neg hall, List.filter_cons_of_neg (by simp)]
    · rw [code_cons_content hspace hclean hrow, List.filter_append, htext]
      by_cases hall : AllBlank rest
      · rw [if_pos hall, code_of_allBlank hall]
      · rw [if_neg hall]
        by_cases hwraps : row.wraps = true
        · rw [if_pos hwraps, if_pos hwraps]
        · rw [if_neg hwraps, if_neg hwraps, List.filter_cons_of_neg (by simp)]

theorem filter_intercalate {lines : List (List α)} (h : ∀ line ∈ lines, newline ∉ line) :
    ([newline].intercalate lines).filter (· ≠ newline) = lines.flatten := by
  induction lines with
  | nil => rfl
  | cons line lines ih =>
    obtain ⟨hline, hlines⟩ := List.forall_mem_cons.mp h
    cases lines with
    | nil =>
      rw [List.intercalate_singleton, filter_of_not_mem hline, List.flatten_singleton]
    | cons next others =>
      have hnewline : [newline].filter (· ≠ newline) = [] := by simp
      rw [List.intercalate_cons_cons, List.filter_append, List.filter_append, hnewline,
        filter_of_not_mem hline, ih hlines, List.append_nil]
      rfl

/-- A cell is read and shown with characters that end no line. -/
def CleanCell (newline : α) (read shown : β → Item α) (cell : β) : Prop :=
  (read cell).Clean newline ∧ (shown cell).Clean newline

omit [DecidableEq α] in
theorem not_mem_lines (hspace : newline ≠ space)
    (hclean : ∀ line ∈ lines, ∀ cell ∈ line, (read cell).Clean newline) :
    ∀ text ∈ lines.map fun line => lineText space (line.map read), newline ∉ text := by
  intro text htext hmem
  obtain ⟨line, hline, rfl⟩ := List.mem_map.mp htext
  rw [lineText_eq_rowText] at hmem
  obtain heq | ⟨item, hitem, hc⟩ := mem_rowText hmem
  · exact hspace heq
  · obtain ⟨cell, hcell, rfl⟩ := List.mem_map.mp hitem
    exact (hclean line hline cell hcell).2 hc

/-- Lines with a newline between each two of them. -/
theorem intercalate_reads_iff (hspace : newline ≠ space) (hnul : nul ≠ space)
    (h : ∀ line ∈ lines, ∀ cell ∈ line, Reads space nul read shown cell)
    (hclean : ∀ line ∈ lines, ∀ cell ∈ line, CleanCell newline read shown cell) :
    [newline].intercalate (lines.map fun line => lineText space (line.map read)) =
        [newline].intercalate (lines.map fun line => lineText space (line.map shown)) ↔
      ∀ line ∈ lines, (∀ cell ∈ line, ¬ Stray nul read shown cell) ∧
        Trimmed read shown line := by
  constructor
  · intro heq
    have hfilter := congrArg (List.filter (· ≠ newline)) heq
    rw [filter_intercalate, filter_intercalate] at hfilter
    · exact (lines_eq_iff hnul h).mp hfilter
    · exact not_mem_lines hspace fun line hline cell hcell => (hclean line hline cell hcell).2
    · exact not_mem_lines hspace fun line hline cell hcell => (hclean line hline cell hcell).1
  · exact fun hall => congrArg _ (lines_eq h hall)

/-- Rows are read as the lines that they show. -/
theorem code_reads_iff (hspace : newline ≠ space) (hnul : nul ≠ space)
    (h : ∀ row ∈ rows, ∀ cell ∈ row.cells, Reads space nul read shown cell)
    (hclean : ∀ row ∈ rows, ∀ cell ∈ row.cells, CleanCell newline read shown cell) :
    code space newline (rows.map (Piece.map read)) 0 =
        joinLines newline ((logicalLines rows).map fun line => lineText space (line.map shown)) ↔
      (∀ line ∈ logicalLines rows, (∀ cell ∈ line, ¬ Stray nul read shown cell) ∧
        Trimmed read shown line) ∧ NoBlankWraps (rows.map (Piece.map read)) := by
  have hmem (line : List β) (hline : line ∈ logicalLines rows) (cell : β) (hcell : cell ∈ line) :
      ∃ row ∈ rows, cell ∈ row.cells := by
    have hcell' : cell ∈ (logicalLines rows).flatten := List.mem_flatten.mpr ⟨line, hline, hcell⟩
    rw [flatten_logicalLines] at hcell'
    exact List.mem_flatMap.mp hcell'
  have hreads : ∀ line ∈ logicalLines rows, ∀ cell ∈ line, Reads space nul read shown cell := by
    intro line hline cell hcell
    obtain ⟨row, hrow, hcell⟩ := hmem line hline cell hcell
    exact h row hrow cell hcell
  have hcleans : ∀ line ∈ logicalLines rows, ∀ cell ∈ line, CleanCell newline read shown cell := by
    intro line hline cell hcell
    obtain ⟨row, hrow, hcell⟩ := hmem line hline cell hcell
    exact hclean row hrow cell hcell
  have hclean' : Clean newline (rows.map (Piece.map read)) := by
    intro row hrow item hitem
    obtain ⟨row', hrow', rfl⟩ := List.mem_map.mp hrow
    obtain ⟨cell, hcell, rfl⟩ := List.mem_map.mp hitem
    exact (hclean row' hrow' cell hcell).1
  have htexts (read : β → Item α) : texts space 0 (rows.map (Piece.map read)) =
      (logicalLines rows).map fun line => lineText space (line.map read) := by
    rw [texts_eq, logicalLines_map]
    cases logicalLines rows with
    | nil => rfl
    | cons line lines =>
      have hfirst : rowText space 0 (line.map read) = lineText space (line.map read) :=
        lineText_eq_rowText.symm
      have hothers : (lines.map (List.map read)).map (lineText space) =
          lines.map fun line => lineText space (line.map read) := List.map_map
      exact congrArg₂ List.cons hfirst hothers
  constructor
  · intro heq
    have hfilter := congrArg (List.filter (· ≠ newline)) heq
    rw [filter_code hspace hclean', htexts, filter_joinLines] at hfilter
    · have hlines := (lines_eq_iff hnul hreads).mp hfilter
      rw [← lines_eq hreads hlines, ← htexts, code_eq_iff hspace hclean'] at heq
      exact ⟨hlines, heq⟩
    · exact not_mem_lines hspace fun line hline cell hcell => (hcleans line hline cell hcell).2
  · rintro ⟨hlines, hnone⟩
    rw [← lines_eq hreads hlines, ← htexts]
    exact (code_eq_iff hspace hclean').mpr hnone

end Reading

end Rio.Wrapped
