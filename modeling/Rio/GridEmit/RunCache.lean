import Mathlib.Logic.Function.Basic
import Rio.GridEmit.Runs
import Rio.Lib.Caches

/-! The caches that rows are drawn through: the fonts of characters, the ascents and syntheses of
fonts, and the shaped runs, in a hash table of small buckets that drop their least recently used
run. Drawing through them draws what is drawn without. -/

set_option linter.dupNamespace false

namespace Rio.GridEmit

/-! ### Shaped runs -/

def runBucketCount : ℕ := 256

def runBucketSize : ℕ := 8

/-- The hash of a run with its glyphs; the run itself is not kept. -/
abbrev RunCacheEntry := UInt64 × List ShapedGlyph

abbrev RunCache := Fin runBucketCount → List RunCacheEntry

def bucketIndex (hash : UInt64) : Fin runBucketCount :=
  ⟨hash.toNat &&& (runBucketCount - 1), Nat.lt_of_le_of_lt Nat.and_le_right (by decide)⟩

/-- The most recent of the first entries that has the hash. -/
def findBack (bucket : List RunCacheEntry) (hash : UInt64) : ℕ → Option ℕ
  | 0 => none
  | i + 1 => if bucket[i]?.map Prod.fst = some hash then some i else findBack bucket hash i

/-- Look a hash up, and make its entry the most recent of its bucket. -/
def runCacheGet (buckets : RunCache) (hash : UInt64) : RunCache × Option (List ShapedGlyph) :=
  let bucket := buckets (bucketIndex hash)
  match findBack bucket hash bucket.length with
  | some i =>
    let bucket := bucket.take i ++ (bucket.drop i).rotate 1
    (Function.update buckets (bucketIndex hash) bucket, bucket.getLast?.map Prod.snd)
  | none => (buckets, none)

/-- A full bucket drops its oldest entry. -/
def runCachePut (buckets : RunCache) (entry : RunCacheEntry) : RunCache :=
  let bucket := buckets (bucketIndex entry.1)
  let bucket := if runBucketSize ≤ bucket.length then bucket.drop 1 else bucket
  Function.update buckets (bucketIndex entry.1) (bucket ++ [entry])

/-! ### Drawing -/

/-- A row that is to be drawn, in a font size and with the colors of its text. `sizeBucket` is the
size in quarters of a pixel. -/
structure RowRequest (K : Type) where
  row : Row Square
  cols : ℕ
  y : UInt16
  rowStyles : List Style
  cursorCol : Option UInt16
  sizeBucket : UInt16
  sizeU16 : UInt16
  fg : ℕ → K

/-- The fonts, and what shapes and rasterizes with them. -/
structure Painter (K : Type) where
  fontLibrary : Char → UInt8 → UInt32 × Bool
  /-- The hash of font, size, style and text. -/
  runHash : UInt32 → UInt16 → UInt8 → List Char → UInt64
  shape : UInt32 → UInt16 → List Char → Option (List ShapedGlyph)
  ascent : UInt32 → UInt16 → ℤ
  /-- Whether a font is to be emboldened and slanted. -/
  synthesis : UInt32 → Bool × Bool
  /-- The atlas, with font, glyph, size, ascent, emoji and synthesis. -/
  ensureGlyph : UInt32 → UInt16 → UInt16 → UInt16 → ℤ → Bool → Bool × Bool →
    Option (GlyphSlot × Bool)
  white : K

structure GridGlyphRasterizer where
  fontResolve : List ((Char × UInt8) × (UInt32 × Bool)) := []
  ascentCache : List ((UInt32 × UInt16) × ℤ) := []
  synthesisCache : List (UInt32 × (Bool × Bool)) := []
  runCache : RunCache := fun _ => []

variable {K : Type}

def RowRequest.text (q : RowRequest K) (p : Painter K) : RowText where
  row := q.row
  cols := q.cols
  y := q.y
  rowStyles := q.rowStyles
  fontLibrary := p.fontLibrary
  cursorCol := q.cursorCol

namespace Painter

def hashOf (p : Painter K) (q : RowRequest K) (r : Run) : UInt64 :=
  p.runHash r.fontId q.sizeBucket r.styleFlags r.text

/-- How a run is drawn whose ascent and synthesis are known. -/
def drawingWith (p : Painter K) (q : RowRequest K) (ascentPx : ℤ) (synthetic : Bool × Bool) :
    Drawing K where
  shape fontId _ text := p.shape fontId q.sizeU16 text
  ensureGlyph r id := p.ensureGlyph r.fontId id q.sizeBucket q.sizeU16 ascentPx r.isEmoji synthetic
  white := p.white
  fg := q.fg

/-- How a row is drawn without caches. -/
def drawing (p : Painter K) (q : RowRequest K) : Drawing K where
  shape fontId _ text := p.shape fontId q.sizeU16 text
  ensureGlyph r id := p.ensureGlyph r.fontId id q.sizeBucket q.sizeU16 (p.ascent r.fontId q.sizeU16)
    r.isEmoji (p.synthesis r.fontId)
  white := p.white
  fg := q.fg

end Painter

namespace GridGlyphRasterizer

/-- The font of a character. ASCII without a style and placeholders have the regular font, and are
not entered. -/
def resolveFont (ras : GridGlyphRasterizer) (p : Painter K) (ch : Char) (styleFlags : UInt8) :
    GridGlyphRasterizer × (UInt32 × Bool) :=
  if ch = Crosswords.kittyPlaceholder then (ras, (fontIdRegular, false))
  else if styleFlags = 0 ∧ ' ' ≤ ch ∧ ch ≤ '~' then (ras, (fontIdRegular, false))
  else
    let (fontResolve, font) :=
      Memo.entry ras.fontResolve (ch, styleFlags) (p.fontLibrary ch styleFlags)
    ({ ras with fontResolve }, font)

def openRun (ras : GridGlyphRasterizer) (p : Painter K) (q : RowRequest K) (x : ℕ) :
    GridGlyphRasterizer × Run :=
  let t := q.text p
  let ch := (t.row.cell x).c
  let styleFlags := t.styleFlags x
  let (ras, fontId, isEmoji) := ras.resolveFont p ch styleFlags
  (ras, ⟨x, x + 1, fontId, isEmoji, styleFlags, [shapeChar ch], [0]⟩)

/-- The font of the next cell is asked for when all else lets it join. -/
def extendRun (platform : Platform) (p : Painter K) (q : RowRequest K) :
    ℕ → GridGlyphRasterizer → Run → GridGlyphRasterizer × Run
  | 0, ras, r => (ras, r)
  | fuel + 1, ras, r =>
    let t := q.text p
    if decide (r.stop < t.cols) && !isRunBreaker (t.row.cell r.stop) &&
        !t.splitsAtCursor r.start r.stop && t.styleFlags r.stop == r.styleFlags then
      let (ras, font) := ras.resolveFont p (t.row.cell r.stop).c r.styleFlags
      if font.1 == r.fontId then
        extendRun platform p q fuel ras (r.push platform (t.row.cell r.stop).c)
      else (ras, r)
    else (ras, r)

/-- The glyphs of a run and the ascent of its font; the ascent is kept. -/
def shapeRun (ras : GridGlyphRasterizer) (p : Painter K) (q : RowRequest K) (r : Run) :
    Option (GridGlyphRasterizer × List ShapedGlyph × ℤ) :=
  match p.shape r.fontId q.sizeU16 r.text with
  | none => none
  | some glyphs =>
    let (ascentCache, ascentPx) :=
      Memo.entry ras.ascentCache (r.fontId, q.sizeBucket) (p.ascent r.fontId q.sizeU16)
    some ({ ras with ascentCache }, glyphs, ascentPx)

/-- See that the glyphs of a run are cached, and get the ascent. -/
def captureAscent (ras : GridGlyphRasterizer) (p : Painter K) (q : RowRequest K) (r : Run) :
    GridGlyphRasterizer × Option ℤ :=
  let (runCache, hit) := runCacheGet ras.runCache (p.hashOf q r)
  let ras := { ras with runCache }
  match hit with
  | some _ => (ras, some ((Memo.find ras.ascentCache (r.fontId, q.sizeBucket)).getD 0))
  | none =>
    match ras.shapeRun p q r with
    | none => (ras, none)
    | some (ras, glyphs, ascentPx) =>
      ({ ras with runCache := runCachePut ras.runCache (p.hashOf q r, glyphs) }, some ascentPx)

def drawRun (platform : Platform) (p : Painter K) (q : RowRequest K) (ras : GridGlyphRasterizer)
    (r : Run) : GridGlyphRasterizer × List (CellText K) :=
  match ras.captureAscent p q r with
  | (ras, none) => (ras, [])
  | (ras, some ascentPx) =>
    let (synthesisCache, synthetic) :=
      Memo.entry ras.synthesisCache r.fontId (p.synthesis r.fontId)
    let (runCache, hit) := runCacheGet ras.runCache (p.hashOf q r)
    ({ ras with synthesisCache, runCache },
      (p.drawingWith q ascentPx synthetic).drawRun platform (q.text p) r (hit.getD []))

def drawFrom (platform : Platform) (p : Painter K) (q : RowRequest K) :
    ℕ → ℕ → GridGlyphRasterizer → GridGlyphRasterizer × List (CellText K)
  | 0, _, ras => (ras, [])
  | fuel + 1, x, ras =>
    if x < q.cols then
      if isRunBreaker (q.row.cell x) then drawFrom platform p q fuel (x + 1) ras
      else
        let (ras, r) := ras.openRun p q x
        let (ras, r) := extendRun platform p q (q.cols - (x + 1)) ras r
        let (ras, cells) := drawRun platform p q ras r
        let (ras, rest) := drawFrom platform p q fuel r.stop ras
        (ras, cells ++ rest)
    else (ras, [])

def buildRowFg (platform : Platform) (p : Painter K) (ras : GridGlyphRasterizer)
    (q : RowRequest K) : GridGlyphRasterizer × List (CellText K) :=
  drawFrom platform p q q.cols 0 ras

/-- Rows are drawn one after another through the same caches. -/
def drawRows (platform : Platform) (p : Painter K) :
    GridGlyphRasterizer → List (RowRequest K) → GridGlyphRasterizer × List (List (CellText K))
  | ras, [] => (ras, [])
  | ras, q :: qs =>
    let (ras, cells) := ras.buildRowFg platform p q
    let (ras, rest) := drawRows platform p ras qs
    (ras, cells :: rest)

end GridGlyphRasterizer

/-! ### A bucket is a list of the most recently used runs -/

theorem findBack_eq_some {bucket : List RunCacheEntry} {hash : UInt64} :
    ∀ {n i : ℕ}, findBack bucket hash n = some i → bucket[i]?.map Prod.fst = some hash
  | n + 1, i, h => by
    unfold findBack at h
    split at h
    case isTrue hkey =>
      cases h
      exact hkey
    case isFalse => exact findBack_eq_some h

theorem findBack_eq_none {bucket : List RunCacheEntry} {hash : UInt64} :
    ∀ {n : ℕ}, findBack bucket hash n = none → ∀ i < n, bucket[i]?.map Prod.fst ≠ some hash
  | n + 1, h, i, hi => by
    unfold findBack at h
    split at h
    case isTrue => cases h
    case isFalse hne =>
      rcases Nat.lt_succ_iff_lt_or_eq.mp hi with hlt | rfl
      · exact findBack_eq_none h i hlt
      · exact hne

/-- The place of a hash splits the bucket. -/
theorem split_of_place {bucket : List RunCacheEntry} {hash : UInt64} {i : ℕ}
    (h : bucket[i]?.map Prod.fst = some hash) :
    ∃ pre glyphs post, bucket = pre ++ (hash, glyphs) :: post ∧ pre.length = i := by
  obtain ⟨⟨_, glyphs⟩, hget, rfl⟩ := Option.map_eq_some_iff.mp h
  obtain ⟨hi, hget⟩ := List.getElem?_eq_some_iff.mp hget
  refine ⟨bucket.take i, glyphs, bucket.drop (i + 1), ?_, List.length_take_of_le hi.le⟩
  rw [← hget, List.cons_getElem_drop_succ, List.take_append_drop]

namespace RunCache

def Bounded (buckets : RunCache) : Prop := ∀ i, Lru.Bounded runBucketSize (buckets i)

/-- A run is used: its entry is the most recent of its bucket. -/
def use (buckets : RunCache) (u : RunCacheEntry) : RunCache :=
  Function.update buckets (bucketIndex u.1)
    (Lru.put runBucketSize (buckets (bucketIndex u.1)) u)

def find (buckets : RunCache) (hash : UInt64) : Option (List ShapedGlyph) :=
  Lru.lookup (buckets (bucketIndex hash)) hash

variable {buckets : RunCache} {hash : UInt64} {glyphs : List ShapedGlyph}

theorem use_bucket (buckets : RunCache) (u : RunCacheEntry) (i : Fin runBucketCount) :
    buckets.use u i =
      if bucketIndex u.1 = i then Lru.put runBucketSize (buckets i) u else buckets i := by
  unfold use
  split
  case isTrue hi =>
    subst hi
    rw [Function.update_self]
  case isFalse hi => rw [Function.update_of_ne (Ne.symm hi)]

theorem find_use (buckets : RunCache) (u : RunCacheEntry) : (buckets.use u).find u.1 = some u.2 := by
  rw [find, use_bucket, if_pos rfl]
  exact Lru.lookup_put_self _ _ u

theorem use_use (buckets : RunCache) (u : RunCacheEntry) : (buckets.use u).use u = buckets.use u := by
  funext i
  rw [use_bucket, use_bucket]
  split
  · rw [Lru.put_put]
  · rfl

theorem use_bounded (h : buckets.Bounded) (u : RunCacheEntry) : (buckets.use u).Bounded := by
  intro i
  rw [use_bucket]
  split
  · exact Lru.put_bounded (by decide) (h i) u
  · exact h i

theorem get_of_find (h : buckets.Bounded) (hfind : buckets.find hash = some glyphs) :
    runCacheGet buckets hash = (buckets.use (hash, glyphs), some glyphs) := by
  unfold runCacheGet
  dsimp only
  split
  case h_1 i hi =>
    obtain ⟨pre, w, post, heq, rfl⟩ := split_of_place (findBack_eq_some hi)
    have hnodup := (h (bucketIndex hash)).nodup
    rw [heq, Lru.keys_append, Lru.keys_cons, List.nodup_append, List.nodup_cons] at hnodup
    obtain ⟨-, ⟨hpost, -⟩, happart⟩ := hnodup
    have hpre : hash ∉ Lru.keys pre :=
      fun hmem => happart hash hmem hash List.mem_cons_self rfl
    obtain rfl : w = glyphs := by
      rw [find, heq, Lru.lookup_of_split hpre] at hfind
      exact Option.some.inj hfind
    have hmem : hash ∈ Lru.keys (pre ++ (hash, w) :: post) := Lru.mem_keys.mpr ⟨w, by simp⟩
    have hbucket : (buckets (bucketIndex hash)).take pre.length ++
        ((buckets (bucketIndex hash)).drop pre.length).rotate 1 =
          Lru.put runBucketSize (buckets (bucketIndex hash)) (hash, w) := by
      rw [heq, List.take_left, List.drop_left, Lru.put, if_pos hmem, Lru.refresh,
        List.filter_append, Lru.filter_absent hpre, List.filter_cons_of_neg (by simp),
        Lru.filter_absent hpost, List.rotate_cons_succ, List.rotate_zero, List.append_assoc]
    rw [hbucket]
    obtain ⟨_, hconcat, -⟩ := Lru.put_eq_concat runBucketSize (buckets (bucketIndex hash)) (hash, w)
    refine Prod.ext rfl ?_
    dsimp only
    rw [hconcat, List.getLast?_concat]
    rfl
  case h_2 hnone =>
    obtain ⟨w, hw⟩ := Lru.mem_keys.mp (Lru.mem_of_lookup hfind)
    obtain ⟨i, hi, hget⟩ := List.getElem_of_mem hw
    refine absurd ?_ (findBack_eq_none hnone i hi)
    rw [List.getElem?_eq_getElem hi, hget]
    rfl

theorem get_of_find_eq_none (hfind : buckets.find hash = none) :
    runCacheGet buckets hash = (buckets, none) := by
  unfold runCacheGet
  dsimp only
  split
  case h_1 i hi =>
    obtain ⟨pre, w, post, heq, -⟩ := split_of_place (findBack_eq_some hi)
    refine absurd (Lru.mem_keys.mpr ⟨w, ?_⟩) (Lru.lookup_eq_none_iff.mp hfind)
    rw [heq]
    simp
  case h_2 => rfl

theorem put_of_find_eq_none (hfind : buckets.find hash = none) (glyphs : List ShapedGlyph) :
    runCachePut buckets (hash, glyphs) = buckets.use (hash, glyphs) := by
  unfold runCachePut use Lru.put
  dsimp only
  rw [if_neg (Lru.lookup_eq_none_iff.mp hfind)]
  by_cases hfull : runBucketSize ≤ (buckets (bucketIndex hash)).length
  · rw [if_pos hfull, if_neg (by omega), List.drop_one]
  · rw [if_neg hfull, if_pos (by omega)]

theorem foldl_use_bucket (us : List RunCacheEntry) : ∀ (buckets : RunCache) (i : Fin runBucketCount),
    us.foldl use buckets i =
      (us.filter fun u => bucketIndex u.1 = i).foldl (Lru.put runBucketSize) (buckets i) := by
  induction us with
  | nil => exact fun _ _ => rfl
  | cons u us ih =>
    intro buckets i
    rw [List.foldl_cons, ih, use_bucket]
    by_cases hi : bucketIndex u.1 = i
    · rw [if_pos hi, List.filter_cons_of_pos (by simpa using hi), List.foldl_cons]
    · rw [if_neg hi, List.filter_cons_of_neg (by simpa using hi)]

theorem mem_use {i : Fin runBucketCount} {e u : RunCacheEntry} (h : e ∈ buckets.use u i) :
    e = u ∨ e ∈ buckets i := by
  rw [use_bucket] at h
  split at h
  · exact Lru.mem_put h
  · exact Or.inr h

end RunCache

/-! ### Drawing through the caches -/

namespace Painter

/-- What the caches rely on: a size in quarters of a pixel belongs to one size in pixels, and runs
with one hash have the same font, size and text. -/
structure Unambiguous (p : Painter K) (px : UInt16 → UInt16) (S : Set (RowRequest K × Run)) :
    Prop where
  size : ∀ a ∈ S, a.1.sizeU16 = px a.1.sizeBucket
  hash : ∀ a ∈ S, ∀ b ∈ S, p.hashOf a.1 a.2 = p.hashOf b.1 b.2 →
    a.2.fontId = b.2.fontId ∧ a.1.sizeBucket = b.1.sizeBucket ∧ a.2.text = b.2.text

/-- The runs of rows. -/
def requested (p : Painter K) (platform : Platform) (qs : List (RowRequest K)) :
    Set (RowRequest K × Run) :=
  {a | a.1 ∈ qs ∧ a.2 ∈ (a.1.text p).runs platform}

def shaped (p : Painter K) (q : RowRequest K) (r : Run) : Option (List ShapedGlyph) :=
  p.shape r.fontId q.sizeU16 r.text

/-- What is drawn of a run without caches. -/
def cells (p : Painter K) (platform : Platform) (q : RowRequest K) (r : Run) : List (CellText K) :=
  match p.shaped q r with
  | some glyphs => (p.drawing q).drawRun platform (q.text p) r glyphs
  | none => []

/-- The entries of runs that can be shaped. -/
def entries (p : Painter K) (q : RowRequest K) (rs : List Run) : List RunCacheEntry :=
  rs.filterMap fun r => (p.shaped q r).map fun glyphs => (p.hashOf q r, glyphs)

/-- The entries of the runs of rows, in the order drawn. -/
def shapedRuns (p : Painter K) (platform : Platform) (qs : List (RowRequest K)) :
    List RunCacheEntry :=
  qs.flatMap fun q => p.entries q ((q.text p).runs platform)

end Painter

namespace GridGlyphRasterizer

variable {p : Painter K} {px : UInt16 → UInt16} {S : Set (RowRequest K × Run)}
  {ras : GridGlyphRasterizer} {q : RowRequest K}

/-- The caches hold what has been asked for. -/
structure Sound (p : Painter K) (px : UInt16 → UInt16) (S : Set (RowRequest K × Run))
    (ras : GridGlyphRasterizer) : Prop where
  fonts : Memo.Sound (fun k => p.fontLibrary k.1 k.2) ras.fontResolve
  ascents : Memo.Sound (fun k => p.ascent k.1 (px k.2)) ras.ascentCache
  syntheses : Memo.Sound p.synthesis ras.synthesisCache
  bounded : ras.runCache.Bounded
  runs : ∀ i, ∀ e ∈ ras.runCache i, ∃ a ∈ S, p.hashOf a.1 a.2 = e.1 ∧
    p.shaped a.1 a.2 = some e.2 ∧
      (Memo.find ras.ascentCache (a.2.fontId, a.1.sizeBucket)).isSome

theorem sound_new : Sound p px S {} where
  fonts := Memo.sound_nil _
  ascents := Memo.sound_nil _
  syntheses := Memo.sound_nil _
  bounded _ := ⟨List.nodup_nil, Nat.zero_le _⟩
  runs _ _ he := nomatch he

/-- The fonts are the same as without the cache. -/
theorem resolveFont_spec (h : ras.Sound p px S) (ch : Char) (styleFlags : UInt8) :
    (ras.resolveFont p ch styleFlags).2 = GridEmit.resolveFont p.fontLibrary ch styleFlags ∧
      (ras.resolveFont p ch styleFlags).1.Sound p px S ∧
      (ras.resolveFont p ch styleFlags).1.runCache = ras.runCache := by
  unfold resolveFont GridEmit.resolveFont
  split
  case isTrue => exact ⟨rfl, h, rfl⟩
  case isFalse =>
    split
    case isTrue => exact ⟨rfl, h, rfl⟩
    case isFalse =>
      exact ⟨Memo.entry_snd h.fonts (ch, styleFlags),
        { h with fonts := Memo.entry_sound h.fonts (ch, styleFlags) }, rfl⟩

theorem openRun_spec (h : ras.Sound p px S) (x : ℕ) :
    (ras.openRun p q x).2 = (q.text p).openRun x ∧ (ras.openRun p q x).1.Sound p px S ∧
      (ras.openRun p q x).1.runCache = ras.runCache := by
  obtain ⟨hfont, hsound, hcache⟩ :=
    resolveFont_spec h ((q.text p).row.cell x).c ((q.text p).styleFlags x)
  unfold openRun RowText.openRun
  dsimp only
  rw [show (q.text p).fontLibrary = p.fontLibrary from rfl, ← hfont]
  exact ⟨rfl, hsound, hcache⟩

theorem extendRun_spec (platform : Platform) (fuel : ℕ) : ∀ {ras : GridGlyphRasterizer} (r : Run), ras.Sound p px S →
    (extendRun platform p q fuel ras r).2 = (q.text p).extendRun platform fuel r ∧
      (extendRun platform p q fuel ras r).1.Sound p px S ∧
      (extendRun platform p q fuel ras r).1.runCache = ras.runCache := by
  induction fuel with
  | zero => exact fun r h => ⟨rfl, h, rfl⟩
  | succ fuel ih =>
    intro ras r h
    obtain ⟨hfont, hsound, hcache⟩ :=
      resolveFont_spec h ((q.text p).row.cell r.stop).c r.styleFlags
    unfold extendRun RowText.extendRun RowText.joins
    dsimp only
    rw [show (q.text p).fontLibrary = p.fontLibrary from rfl, ← hfont]
    generalize ras.resolveFont p ((q.text p).row.cell r.stop).c r.styleFlags = found at *
    split
    case isTrue hjoins =>
      rw [hjoins, Bool.true_and]
      split
      case isTrue hsame =>
        obtain ⟨hrun, hsound', hcache'⟩ :=
          ih (r.push platform ((q.text p).row.cell r.stop).c) hsound
        exact ⟨hrun, hsound', hcache'.trans hcache⟩
      case isFalse => exact ⟨rfl, hsound, hcache⟩
    case isFalse hjoins =>
      rw [Bool.not_eq_true] at hjoins
      rw [hjoins, Bool.false_and, if_neg Bool.false_ne_true]
      exact ⟨rfl, h, rfl⟩

/-- An entry that is found was shaped from the same font, size and text. -/
theorem Sound.of_find (h : ras.Sound p px S) (hS : p.Unambiguous px S) {r : Run}
    (hr : (q, r) ∈ S) {glyphs : List ShapedGlyph}
    (hfind : ras.runCache.find (p.hashOf q r) = some glyphs) :
    p.shaped q r = some glyphs ∧
      Memo.find ras.ascentCache (r.fontId, q.sizeBucket) = some (p.ascent r.fontId q.sizeU16) := by
  obtain ⟨a, ha, hhash, hshaped, hascent⟩ := h.runs _ _ (Lru.mem_entry_of_lookup hfind)
  obtain ⟨hfont, hsize, htext⟩ := hS.hash a ha (q, r) hr hhash
  have hpx : a.1.sizeU16 = q.sizeU16 := by rw [hS.size a ha, hS.size (q, r) hr, hsize]
  unfold Painter.shaped at hshaped ⊢
  dsimp only at hfont hsize htext hshaped
  rw [hfont, hsize] at hascent
  rw [hfont, hpx, htext] at hshaped
  obtain ⟨ascentPx, hget⟩ := Option.isSome_iff_exists.mp hascent
  refine ⟨hshaped, ?_⟩
  rw [hget, h.ascents _ _ hget]
  exact congrArg some (congrArg _ (hS.size (q, r) hr).symm)

/-- A run that can be shaped is in the cache afterwards, and its ascent is that of its font. -/
theorem captureAscent_spec (h : ras.Sound p px S) (hS : p.Unambiguous px S) {r : Run}
    (hr : (q, r) ∈ S) :
    (ras.captureAscent p q r).2 =
        (p.shaped q r).map (fun _ => p.ascent r.fontId q.sizeU16) ∧
      (ras.captureAscent p q r).1.Sound p px S ∧
      (ras.captureAscent p q r).1.runCache =
        (p.entries q [r]).foldl RunCache.use ras.runCache := by
  have hsame (glyphs : List ShapedGlyph) (hshaped : p.shaped q r = some glyphs) :
      p.entries q [r] = [(p.hashOf q r, glyphs)] := by
    simp [Painter.entries, hshaped]
  unfold captureAscent
  dsimp only
  cases hfind : ras.runCache.find (p.hashOf q r) with
  | some glyphs =>
    obtain ⟨hshaped, hascent⟩ := h.of_find hS hr hfind
    rw [RunCache.get_of_find h.bounded hfind, hsame glyphs hshaped, hshaped]
    dsimp only
    rw [hascent]
    refine ⟨rfl, { h with
      bounded := RunCache.use_bounded h.bounded _
      runs := fun i e he => ?_ }, rfl⟩
    rcases RunCache.mem_use he with rfl | hold
    · exact ⟨(q, r), hr, rfl, hshaped, Option.isSome_iff_exists.mpr ⟨_, hascent⟩⟩
    · exact h.runs i e hold
  | none =>
    rw [RunCache.get_of_find_eq_none hfind]
    unfold shapeRun
    dsimp only
    cases hshaped : p.shape r.fontId q.sizeU16 r.text with
    | none =>
      have hnone : p.shaped q r = none := hshaped
      dsimp only
      rw [hnone]
      refine ⟨rfl, h, ?_⟩
      simp [Painter.entries, hnone]
    | some glyphs =>
      have hsome : p.shaped q r = some glyphs := hshaped
      have hpx : p.ascent r.fontId q.sizeU16 = p.ascent r.fontId (px q.sizeBucket) :=
        congrArg _ (hS.size (q, r) hr)
      dsimp only
      rw [RunCache.put_of_find_eq_none hfind, hsame glyphs hsome, hsome, hpx]
      refine ⟨congrArg some (Memo.entry_snd h.ascents (r.fontId, q.sizeBucket)), { h with
        ascents := Memo.entry_sound h.ascents (r.fontId, q.sizeBucket)
        bounded := RunCache.use_bounded h.bounded _
        runs := fun i e he => ?_ }, rfl⟩
      rcases RunCache.mem_use he with rfl | hold
      · refine ⟨(q, r), hr, rfl, hsome, ?_⟩
        dsimp only
        rw [Memo.find_entry_self]
        rfl
      · obtain ⟨a, ha, hhash, hold, hascent⟩ := h.runs i e hold
        obtain ⟨ascentPx, hget⟩ := Option.isSome_iff_exists.mp hascent
        refine ⟨a, ha, hhash, hold, ?_⟩
        dsimp only
        rw [Memo.find_entry _ _ _ hget]
        rfl

/-- A run is drawn as without caches. -/
theorem drawRun_spec (platform : Platform) (h : ras.Sound p px S) (hS : p.Unambiguous px S)
    {r : Run} (hr : (q, r) ∈ S) :
    (drawRun platform p q ras r).2 = p.cells platform q r ∧
      (drawRun platform p q ras r).1.Sound p px S ∧
      (drawRun platform p q ras r).1.runCache =
        (p.entries q [r]).foldl RunCache.use ras.runCache := by
  obtain ⟨hascent, hsound, hcache⟩ := captureAscent_spec h hS hr
  unfold drawRun
  generalize ras.captureAscent p q r = captured at *
  obtain ⟨ras', ascent⟩ := captured
  dsimp only at hascent hsound hcache
  subst hascent
  unfold Painter.cells
  cases hshaped : p.shaped q r with
  | none => exact ⟨rfl, hsound, hcache⟩
  | some glyphs =>
    have hentries : p.entries q [r] = [(p.hashOf q r, glyphs)] := by
      simp [Painter.entries, hshaped]
    have hused : ras'.runCache = ras.runCache.use (p.hashOf q r, glyphs) := by
      rw [hcache, hentries]
      rfl
    have hfind : ras'.runCache.find (p.hashOf q r) = some glyphs := by
      rw [hused]
      exact RunCache.find_use ras.runCache (p.hashOf q r, glyphs)
    dsimp only [Option.map_some]
    rw [RunCache.get_of_find hsound.bounded hfind, Memo.entry_snd hsound.syntheses]
    have hsame : ras'.runCache.use (p.hashOf q r, glyphs) = ras'.runCache := by
      rw [hused, RunCache.use_use]
    dsimp only
    rw [hsame]
    refine ⟨rfl, { hsound with
      syntheses := Memo.entry_sound hsound.syntheses r.fontId }, hcache⟩

theorem runsFrom_stop (platform : Platform) (fuel : ℕ) {x : ℕ} (hx : ¬ x < q.cols) :
    (q.text p).runsFrom platform (fuel + 1) x = [] := if_neg hx

theorem runsFrom_break (platform : Platform) (fuel : ℕ) {x : ℕ} (hx : x < q.cols)
    (hbreak : isRunBreaker (q.row.cell x) = true) :
    (q.text p).runsFrom platform (fuel + 1) x = (q.text p).runsFrom platform fuel (x + 1) :=
  (if_pos hx).trans (if_pos hbreak)

theorem runsFrom_run (platform : Platform) (fuel : ℕ) {x : ℕ} (hx : x < q.cols)
    (hbreak : ¬ isRunBreaker (q.row.cell x) = true) :
    (q.text p).runsFrom platform (fuel + 1) x =
      (q.text p).extendRun platform (q.cols - (x + 1)) ((q.text p).openRun x) ::
        (q.text p).runsFrom platform fuel
          ((q.text p).extendRun platform (q.cols - (x + 1)) ((q.text p).openRun x)).stop :=
  (if_pos hx).trans (if_neg hbreak)

theorem drawFrom_spec (platform : Platform) (hS : p.Unambiguous px S) (fuel : ℕ) :
    ∀ {ras : GridGlyphRasterizer} (x : ℕ), ras.Sound p px S →
      (∀ r ∈ (q.text p).runsFrom platform fuel x, (q, r) ∈ S) →
      (drawFrom platform p q fuel x ras).2 =
          ((q.text p).runsFrom platform fuel x).flatMap (p.cells platform q) ∧
        (drawFrom platform p q fuel x ras).1.Sound p px S ∧
        (drawFrom platform p q fuel x ras).1.runCache =
          (p.entries q ((q.text p).runsFrom platform fuel x)).foldl RunCache.use ras.runCache := by
  induction fuel with
  | zero => exact fun x h _ => ⟨rfl, h, rfl⟩
  | succ fuel ih =>
    intro ras x h hmem
    unfold drawFrom
    split
    case isFalse hx =>
      rw [runsFrom_stop platform fuel hx]
      exact ⟨rfl, h, rfl⟩
    case isTrue hx =>
      split
      case isTrue hbreak =>
        rw [runsFrom_break platform fuel hx hbreak] at hmem ⊢
        exact ih (x + 1) h hmem
      case isFalse hbreak =>
        rw [runsFrom_run platform fuel hx hbreak] at hmem ⊢
        obtain ⟨hopen, hopened, hopenCache⟩ := openRun_spec (q := q) h x
        obtain ⟨hextend, hextended, hextendCache⟩ :=
          extendRun_spec (q := q) platform (q.cols - (x + 1)) ((q.text p).openRun x) hopened
        dsimp only
        rw [hopen, hextend]
        generalize (q.text p).extendRun platform (q.cols - (x + 1)) ((q.text p).openRun x) = r at *
        generalize (extendRun platform p q (q.cols - (x + 1)) (ras.openRun p q x).1
          ((q.text p).openRun x)).1 = ras' at *
        obtain ⟨hdraw, hdrawn, hdrawCache⟩ :=
          drawRun_spec platform hextended hS (hmem r List.mem_cons_self)
        obtain ⟨hrest, hlast, hrestCache⟩ := ih r.stop hdrawn
          fun r' hr' => hmem r' (List.mem_cons_of_mem r hr')
        refine ⟨?_, hlast, ?_⟩
        · rw [List.flatMap_cons, hdraw, hrest]
        · rw [hrestCache, hdrawCache, hextendCache, hopenCache, ← List.foldl_append]
          congr 1
          exact (List.filterMap_append).symm

theorem buildRowFg_spec (platform : Platform) (hS : p.Unambiguous px S) (h : ras.Sound p px S)
    (hmem : ∀ r ∈ (q.text p).runs platform, (q, r) ∈ S) :
    (ras.buildRowFg platform p q).2 = (p.drawing q).buildRowFg platform (q.text p) ∧
      (ras.buildRowFg platform p q).1.Sound p px S ∧
      (ras.buildRowFg platform p q).1.runCache =
        (p.entries q ((q.text p).runs platform)).foldl RunCache.use ras.runCache :=
  drawFrom_spec platform hS q.cols 0 h hmem

theorem drawRows_spec (platform : Platform) (hS : p.Unambiguous px S) :
    ∀ (qs : List (RowRequest K)) {ras : GridGlyphRasterizer}, ras.Sound p px S →
      p.requested platform qs ⊆ S →
      (drawRows platform p ras qs).2 =
          qs.map (fun q => (p.drawing q).buildRowFg platform (q.text p)) ∧
        (drawRows platform p ras qs).1.Sound p px S ∧
        (drawRows platform p ras qs).1.runCache =
          (p.shapedRuns platform qs).foldl RunCache.use ras.runCache
  | [], _, h, _ => ⟨rfl, h, rfl⟩
  | q :: qs, ras, h, hmem => by
    obtain ⟨hrow, hsound, hcache⟩ := buildRowFg_spec platform hS h
      fun r hr => hmem (show (q, r) ∈ p.requested platform (q :: qs) from
        ⟨List.mem_cons_self, hr⟩)
    obtain ⟨hrest, hlast, hrestCache⟩ := drawRows_spec platform hS qs hsound
      fun a ha => hmem ⟨List.mem_cons_of_mem q ha.1, ha.2⟩
    unfold drawRows
    dsimp only
    refine ⟨?_, hlast, ?_⟩
    · rw [hrow, hrest, List.map_cons]
    · rw [hrestCache, hcache, Painter.shapedRuns, Painter.shapedRuns, List.flatMap_cons,
        List.foldl_append]

/-- The other runs of a bucket. -/
def besides (hash : UInt64) (later : List RunCacheEntry) : Finset UInt64 :=
  Lru.usedKeys (later.filter fun u => bucketIndex u.1 = bucketIndex hash)

end GridGlyphRasterizer

/-! ### Two rows -/

def plainHash (text : List Char) : UInt64 :=
  .ofNat (text.foldl (fun n c => n * 256 + c.toNat) 0)

/-- One glyph for each character, in one font, with the text itself for a hash. -/
def plainPainter : Painter Unit where
  fontLibrary _ _ := (fontIdRegular, false)
  runHash _ _ _ text := plainHash text
  shape _ _ text := some ((List.range text.length).map fun i => ⟨.ofNat i, i⟩)
  ascent _ size := size.toNat
  synthesis _ := (false, false)
  ensureGlyph _ _ _ _ ascentPx _ _ := some (⟨0, 0, 1, 1, 0, ascentPx⟩, false)
  white := ()

def plainRequest (cells : List Square) : RowRequest Unit where
  row := .fromVec cells cells.length
  cols := cells.length
  y := 0
  rowStyles := []
  cursorCol := none
  sizeBucket := 40
  sizeU16 := 10
  fg _ := ()

/-- A word, and a row with the word again. -/
def twoRows : List (RowRequest Unit) :=
  [plainRequest [.fromChar 'a', .fromChar 'b'],
    plainRequest [.fromChar 'a', .fromChar 'b', .fromChar ' ', .fromChar 'c']]

theorem twoRows_unambiguous :
    plainPainter.Unambiguous (fun _ => 10) (plainPainter.requested .other twoRows) := by
  have hruns : ∀ a ∈ plainPainter.requested .other twoRows, a.2.fontId = 0 ∧
      a.1.sizeBucket = 40 ∧ a.1.sizeU16 = 10 ∧ (a.2.text = ['a', 'b'] ∨ a.2.text = ['c']) := by
    rintro ⟨q, r⟩ ⟨hq, hr⟩
    rcases List.mem_pair.mp hq with rfl | rfl
    · have hall : ∀ r ∈ ((plainRequest [.fromChar 'a', .fromChar 'b']).text plainPainter).runs
          .other, r.fontId = 0 ∧ (r.text = ['a', 'b'] ∨ r.text = ['c']) := by decide +kernel
      exact ⟨(hall r hr).1, rfl, rfl, (hall r hr).2⟩
    · have hall : ∀ r ∈ ((plainRequest [.fromChar 'a', .fromChar 'b', .fromChar ' ',
          .fromChar 'c']).text plainPainter).runs .other,
            r.fontId = 0 ∧ (r.text = ['a', 'b'] ∨ r.text = ['c']) := by decide +kernel
      exact ⟨(hall r hr).1, rfl, rfl, (hall r hr).2⟩
  constructor
  · intro a ha
    exact (hruns a ha).2.2.1
  · intro a ha b hb hhash
    obtain ⟨hfont, hsize, -, htext⟩ := hruns a ha
    obtain ⟨hfont', hsize', -, htext'⟩ := hruns b hb
    refine ⟨hfont.trans hfont'.symm, hsize.trans hsize'.symm, ?_⟩
    change plainHash a.2.text = plainHash b.2.text at hhash
    rcases htext with htext | htext <;> rcases htext' with htext' | htext'
    all_goals rw [htext, htext'] at hhash ⊢
    all_goals exact absurd hhash (by decide +kernel)

end Rio.GridEmit
