import Rio.Lib.Runs

/-! The ring of bytes between the thread that owns a pipe and the one that reads or writes it.
Each side loads the length, copies byte by byte and then moves the length; the other side may
step in between. -/

set_option linter.dupNamespace false

namespace Rio.Teletypewriter

/-- What `write_from_slice` is doing. -/
inductive Writing (α : Type*) where
  | idle
  /-- The slice it writes, and how much of it is copied. -/
  | copying (slice : List α) (copied : ℕ)
  deriving DecidableEq, Repr

/-- What `read_to_slice` is doing. -/
inductive Reading (α : Type*) where
  | idle
  /-- How much it reads, and what is copied of it. -/
  | copying (readSize : ℕ) (copied : List α)
  deriving DecidableEq, Repr

/-- `SpscBuffer` with its writer and its reader. -/
structure Spsc (α : Type*) where
  buf : List α
  len : ℕ
  /-- `end` of the writer. -/
  writeEnd : ℕ
  /-- `start` of the reader. -/
  start : ℕ
  writer : Writing α
  reader : Reading α
  deriving DecidableEq, Repr

variable {α : Type*}

inductive SpscAction (α : Type*) where
  /-- `write_from_slice` up to its load of the length. -/
  | write (slice : List α)
  | copyIn
  /-- The `fetch_add`. -/
  | commit
  /-- `read_to_slice` into a slice of a size, up to its load of the length. -/
  | read (size : ℕ)
  | copyOut
  /-- The `fetch_sub`. -/
  | release
  deriving DecidableEq, Repr

namespace Spsc

/-- `spsc_buffer(size)`. -/
def new (zero : α) (size : ℕ) : Spsc α where
  buf := List.replicate size zero
  len := 0
  writeEnd := 0
  start := 0
  writer := .idle
  reader := .idle

def capacity (s : Spsc α) : ℕ := s.buf.length

/-- How much `write_from_slice` writes of a slice of a length. -/
def writeSize (s : Spsc α) (length : ℕ) : ℕ :=
  min (min length (s.capacity - s.len)) (s.capacity - s.writeEnd)

/-- How much `read_to_slice` reads into a slice of a length. -/
def readSize (s : Spsc α) (length : ℕ) : ℕ :=
  min (min length s.len) (s.capacity - s.start)

def copyIn (s : Spsc α) : Spsc α :=
  match s.writer with
  | .copying slice copied =>
    match slice[copied]? with
    | some byte =>
      { s with
        buf := s.buf.set (s.writeEnd + copied) byte
        writer := .copying slice (copied + 1) }
    | none => s
  | .idle => s

def commit (s : Spsc α) : Spsc α :=
  match s.writer with
  | .copying slice copied =>
    if copied = slice.length then
      { s with
        writeEnd := (s.writeEnd + slice.length) % s.capacity
        len := s.len + slice.length
        writer := .idle }
    else s
  | .idle => s

def copyOut (s : Spsc α) : Spsc α :=
  match s.reader with
  | .copying size copied =>
    match s.buf[s.start + copied.length]? with
    | some byte =>
      if copied.length < size then { s with reader := .copying size (copied ++ [byte]) } else s
    | none => s
  | .idle => s

def release (s : Spsc α) : Spsc α :=
  match s.reader with
  | .copying size copied =>
    if copied.length = size then
      { s with
        start := (s.start + size) % s.capacity
        len := s.len - size
        reader := .idle }
    else s
  | .idle => s

/-- An action that its side is not about to take changes nothing. -/
def step (s : Spsc α) : SpscAction α → Spsc α
  | .write slice =>
    match s.writer with
    | .idle => { s with writer := .copying (slice.take (s.writeSize slice.length)) 0 }
    | .copying _ _ => s
  | .copyIn => s.copyIn
  | .commit => s.commit
  | .read size =>
    match s.reader with
    | .idle => { s with reader := .copying (s.readSize size) [] }
    | .copying _ _ => s
  | .copyOut => s.copyOut
  | .release => s.release

/-- The bytes that a step reports as written: what `write_from_slice` returns counts them. -/
def accepted (s : Spsc α) : SpscAction α → List α
  | .commit =>
    match s.writer with
    | .copying slice copied => if copied = slice.length then slice else []
    | .idle => []
  | _ => []

/-- The bytes that a step hands to the caller of `read_to_slice`. -/
def delivered (s : Spsc α) : SpscAction α → List α
  | .release =>
    match s.reader with
    | .copying size copied => if copied.length = size then copied else []
    | .idle => []
  | _ => []

/-- What a run reports, step after step. -/
def reported (report : Spsc α → SpscAction α → List α) : Spsc α → List (SpscAction α) → List α
  | _, [] => []
  | s, a :: as => report s a ++ reported report (s.step a) as

/-- What the length says is in the ring. -/
def contents (s : Spsc α) : List α := (s.buf.rotate s.start).take s.len

/-! ### What both sides rely on -/

theorem prefix_concat {l m : List α} {x : α} (h : l <+: m) (hx : m[l.length]? = some x) :
    l ++ [x] <+: m := by
  obtain ⟨rest, rfl⟩ := h
  rw [List.getElem?_append_right le_rfl, Nat.sub_self] at hx
  cases rest with
  | nil => cases hx
  | cons y rest =>
    cases hx
    exact ⟨rest, by simp⟩

/-- Two places of a stream less than a turn of the ring apart are stored apart. -/
theorem mod_ne_of_lt {a b n : ℕ} (hlt : a < b) (hturn : b < a + n) : a % n ≠ b % n := by
  intro heq
  have hdvd : n ∣ b - a := (Nat.modEq_iff_dvd' hlt.le).mp heq
  have := Nat.le_of_dvd (by omega) hdvd
  omega

/-- The ring holds the part of the written stream that is not yet read; a write in progress is
copied into free cells, a read in progress out of full ones. -/
structure Holds (n : ℕ) (written read : List α) (s : Spsc α) : Prop where
  capacity : s.capacity = n
  pos : 0 < n
  len : read.length + s.len = written.length
  fits : s.len ≤ n
  start : s.start = read.length % n
  writeEnd : s.writeEnd = written.length % n
  prefixed : read <+: written
  cells : ∀ k, read.length ≤ k → k < written.length → s.buf[k % n]? = written[k]?
  writer : ∀ slice copied, s.writer = .copying slice copied →
    copied ≤ slice.length ∧ s.len + slice.length ≤ n ∧ s.writeEnd + slice.length ≤ n ∧
      ∀ j < copied, s.buf[s.writeEnd + j]? = slice[j]?
  reader : ∀ size copied, s.reader = .copying size copied →
    copied.length ≤ size ∧ size ≤ s.len ∧ s.start + size ≤ n ∧ read ++ copied <+: written

section Steps
variable {s : Spsc α} {n : ℕ} {written read : List α}

theorem new_holds (zero : α) {size : ℕ} (h : 0 < size) : (new zero size).Holds size [] [] where
  capacity := List.length_replicate
  pos := h
  len := rfl
  fits := Nat.zero_le _
  start := (Nat.zero_mod _).symm
  writeEnd := (Nat.zero_mod _).symm
  prefixed := List.prefix_rfl
  cells := by simp
  writer := by simp [new]
  reader := by simp [new]

theorem Holds.writeEnd_lt (h : Holds n written read s) : s.writeEnd < n := by
  rw [h.writeEnd]
  exact Nat.mod_lt _ h.pos

theorem Holds.start_lt (h : Holds n written read s) : s.start < n := by
  rw [h.start]
  exact Nat.mod_lt _ h.pos

/-- The cell of a byte that the writer copies, by its place in the stream. -/
theorem Holds.cell_in (h : Holds n written read s) {j : ℕ} (hj : s.writeEnd + j < n) :
    s.writeEnd + j = (written.length + j) % n := by
  rw [h.writeEnd] at hj ⊢
  rw [← Nat.mod_add_mod, Nat.mod_eq_of_lt hj]

theorem Holds.cell_out (h : Holds n written read s) {j : ℕ} (hj : s.start + j < n) :
    s.start + j = (read.length + j) % n := by
  rw [h.start] at hj ⊢
  rw [← Nat.mod_add_mod, Nat.mod_eq_of_lt hj]

theorem write_holds (h : Holds n written read s) (slice : List α) :
    Holds n written read (s.step (.write slice)) := by
  unfold step
  dsimp only
  split
  case h_2 => exact h
  case h_1 =>
    refine { h with writer := ?_ }
    intro slice' copied hwriter
    obtain ⟨rfl, rfl⟩ := Writing.copying.inj hwriter
    have hfits := h.fits
    have hend := h.writeEnd_lt
    have hcapacity := h.capacity
    have hsize : (slice.take (s.writeSize slice.length)).length ≤
        min (n - s.len) (n - s.writeEnd) := by
      simp only [List.length_take, writeSize]
      omega
    exact ⟨Nat.zero_le _, by dsimp only; omega, by dsimp only; omega,
      fun j hj => absurd hj (Nat.not_lt_zero j)⟩

theorem read_holds (h : Holds n written read s) (size : ℕ) :
    Holds n written read (s.step (.read size)) := by
  unfold step
  dsimp only
  split
  case h_2 => exact h
  case h_1 =>
    refine { h with reader := ?_ }
    intro size' copied hreader
    obtain ⟨rfl, rfl⟩ := Reading.copying.inj hreader
    have hstart := h.start_lt
    have hcapacity := h.capacity
    have hsize : s.readSize size ≤ min s.len (n - s.start) := by
      unfold readSize
      omega
    exact ⟨Nat.zero_le _, by dsimp only; omega, by dsimp only; omega,
      by simpa using h.prefixed⟩

/-- The cell that the writer fills holds no byte that is still to be read. -/
theorem copyIn_holds (h : Holds n written read s) : Holds n written read s.copyIn := by
  unfold copyIn
  split
  case h_2 => exact h
  case h_1 slice copied hwriter =>
    split
    case h_2 => exact h
    case h_1 byte hbyte =>
      obtain ⟨hcopied, hroom, hend, hdone⟩ := h.writer slice copied hwriter
      have hlt : copied < slice.length := (List.getElem?_eq_some_iff.mp hbyte).1
      have hcell : s.writeEnd + copied < n := by omega
      refine { h with capacity := ?_, cells := ?_, writer := ?_ }
      · exact List.length_set.trans h.capacity
      · intro k hlow hhigh
        have hlen := h.len
        have hapart : k % n ≠ (written.length + copied) % n :=
          mod_ne_of_lt (by omega) (by omega)
        rw [List.getElem?_set_ne (by rw [h.cell_in hcell]; exact hapart.symm)]
        exact h.cells k hlow hhigh
      · intro slice' copied' hwriter'
        obtain ⟨rfl, rfl⟩ := Writing.copying.inj hwriter'
        refine ⟨hlt, hroom, hend, fun j hj => ?_⟩
        dsimp only
        by_cases hlast : j = copied
        · have hinside : s.writeEnd + copied < s.buf.length := hcell.trans_eq h.capacity.symm
          rw [hlast, List.getElem?_set_self hinside, hbyte]
        · rw [List.getElem?_set_ne (by omega)]
          exact hdone j (by omega)

/-- The slice that is written joins the stream. -/
theorem commit_holds (h : Holds n written read s) :
    Holds n (written ++ s.accepted .commit) read s.commit := by
  unfold commit accepted
  dsimp only
  split
  case h_2 => simpa using h
  case h_1 slice copied hwriter =>
    split
    case isFalse => simpa using h
    case isTrue hall =>
      obtain ⟨-, hroom, hend, hdone⟩ := h.writer slice copied hwriter
      have hlen := h.len
      refine ⟨h.capacity, h.pos, ?_, hroom, h.start, ?_, ?_, ?_, by simp, ?_⟩
      · simp only [List.length_append]
        omega
      · dsimp only
        rw [h.capacity, List.length_append, h.writeEnd, Nat.mod_add_mod]
      · exact h.prefixed.trans (List.prefix_append _ _)
      · intro k hlow hhigh
        by_cases hold : k < written.length
        · rw [List.getElem?_append_left hold]
          exact h.cells k hlow hold
        · have hnew := hdone (k - written.length) (by simp at hhigh; omega)
          rw [h.cell_in (by simp at hhigh; omega)] at hnew
          rw [List.getElem?_append_right (by omega), ← hnew]
          congr 2
          omega
      · intro size copied' hreader
        obtain ⟨hcopied, hsize, hinside, hprefix⟩ := h.reader size copied' hreader
        exact ⟨hcopied, by dsimp only; omega, hinside, hprefix.trans (List.prefix_append _ _)⟩

/-- The byte that the reader copies is the next one of the stream. -/
theorem copyOut_holds (h : Holds n written read s) : Holds n written read s.copyOut := by
  unfold copyOut
  split
  case h_2 => exact h
  case h_1 size copied hreader =>
    split
    case h_2 => exact h
    case h_1 byte hbyte =>
      split
      case isFalse => exact h
      case isTrue hmore =>
        obtain ⟨hcopied, hsize, hinside, hprefix⟩ := h.reader size copied hreader
        have hlen := h.len
        have hnext : written[(read ++ copied).length]? = some byte := by
          rw [List.length_append, ← h.cells _ (by omega) (by omega),
            ← h.cell_out (by omega)]
          exact hbyte
        refine { h with reader := ?_ }
        intro size' copied' hreader'
        obtain ⟨rfl, rfl⟩ := Reading.copying.inj hreader'
        refine ⟨by simpa using hmore, hsize, hinside, ?_⟩
        rw [← List.append_assoc]
        exact prefix_concat hprefix hnext

/-- The bytes that are handed out leave the ring. -/
theorem release_holds (h : Holds n written read s) :
    Holds n written (read ++ s.delivered .release) s.release := by
  unfold release delivered
  dsimp only
  split
  case h_2 => simpa using h
  case h_1 size copied hreader =>
    split
    case isFalse => simpa using h
    case isTrue hall =>
      obtain ⟨-, hsize, hinside, hprefix⟩ := h.reader size copied hreader
      have hlen := h.len
      have hfits := h.fits
      refine ⟨h.capacity, h.pos, ?_, ?_, ?_, h.writeEnd, hprefix, ?_, ?_, by simp⟩
      · simp only [List.length_append]
        omega
      · dsimp only
        omega
      · dsimp only
        rw [h.capacity, List.length_append, hall, h.start, Nat.mod_add_mod]
      · intro k hlow hhigh
        exact h.cells k (by simp at hlow; omega) hhigh
      · intro slice copied' hwriter
        obtain ⟨hcopied, hroom, hend, hdone⟩ := h.writer slice copied' hwriter
        exact ⟨hcopied, by dsimp only; omega, hend, hdone⟩

theorem step_holds (h : Holds n written read s) (a : SpscAction α) :
    Holds n (written ++ s.accepted a) (read ++ s.delivered a) (s.step a) := by
  cases a with
  | write slice => simpa [accepted, delivered] using write_holds h slice
  | copyIn => simpa [step, accepted, delivered] using copyIn_holds h
  | commit => simpa only [step, delivered, List.append_nil] using commit_holds h
  | read size => simpa [accepted, delivered] using read_holds h size
  | copyOut => simpa [step, accepted, delivered] using copyOut_holds h
  | release => simpa only [step, accepted, List.append_nil] using release_holds h

end Steps

theorem run_holds {n : ℕ} : ∀ (actions : List (SpscAction α)) {s : Spsc α}
    {written read : List α}, Holds n written read s →
    Holds n (written ++ reported accepted s actions) (read ++ reported delivered s actions)
      (actions.foldl step s)
  | [], _, _, _, h => by simpa [reported] using h
  | a :: actions, s, written, read, h => by
    have := run_holds actions (step_holds h a)
    simpa [reported, List.append_assoc] using this

/-- What is in the ring is the rest of what was written. -/
theorem Holds.written_eq {s : Spsc α} {n : ℕ} {written read : List α}
    (h : Holds n written read s) : written = read ++ s.contents := by
  obtain ⟨rest, rfl⟩ := h.prefixed
  congr 1
  have hlen : rest.length = s.len := by
    have := h.len
    simp only [List.length_append] at this
    omega
  apply List.ext_getElem?
  intro k
  unfold contents
  rw [List.getElem?_take]
  split
  case isTrue hk =>
    have hfits := h.fits
    have hcapacity : s.buf.length = n := h.capacity
    have hcell := h.cells (read.length + k) (by omega) (by simp; omega)
    rw [List.getElem?_append_right (by omega), Nat.add_sub_cancel_left] at hcell
    rw [← hcell, List.getElem?_rotate (by omega), h.start, hcapacity, Nat.add_mod_mod,
      Nat.add_comm]
  case isFalse hk => exact List.getElem?_eq_none (by omega)

/-- However the two threads interleave, the bytes come out in the order they went in: what was
written is what was read, followed by what the ring still holds. -/
theorem run_fifo (zero : α) {size : ℕ} (h : 0 < size) (actions : List (SpscAction α)) :
    reported accepted (new zero size) actions =
      reported delivered (new zero size) actions ++ (actions.foldl step (new zero size)).contents :=
  (run_holds actions (new_holds zero h)).written_eq

/-- Reading begins while a write is in progress. -/
theorem run_fifo_interleaved :
    reported delivered (new 0 2) [.write [7], .copyIn, .commit, .write [8, 9], .read 4, .copyIn,
      .copyOut, .release, .commit] = [7] := by
  have h := run_fifo 0 (show 0 < 2 by decide) [.write [7], .copyIn, .commit, .write [8, 9],
    .read 4, .copyIn, .copyOut, .release, .commit]
  have hwritten : reported accepted (new 0 2) [.write [7], .copyIn, .commit, .write [8, 9],
    .read 4, .copyIn, .copyOut, .release, .commit] = [7, 8] := by decide
  have hcontents : ([.write [7], .copyIn, .commit, .write [8, 9], .read 4, .copyIn, .copyOut,
    .release, .commit].foldl step (new 0 2)).contents = [8] := by decide
  rw [hwritten, hcontents] at h
  exact (List.append_cancel_right h).symm

/-- The cells that a write in progress will still touch are none of those that a read in progress
will, and all are inside the ring. -/
theorem run_apart (zero : α) {size : ℕ} (h : 0 < size) (actions : List (SpscAction α))
    {slice : List α} {copied : ℕ} {wanted : ℕ} {out : List α}
    (hwriter : (actions.foldl step (new zero size)).writer = .copying slice copied)
    (hreader : (actions.foldl step (new zero size)).reader = .copying wanted out)
    {i j : ℕ} (hi : i < slice.length) (hj : j < wanted) :
    (actions.foldl step (new zero size)).writeEnd + i < size ∧
      (actions.foldl step (new zero size)).start + j < size ∧
      (actions.foldl step (new zero size)).writeEnd + i ≠
        (actions.foldl step (new zero size)).start + j := by
  have hholds := run_holds actions (new_holds zero h)
  obtain ⟨-, hroom, hend, -⟩ := hholds.writer slice copied hwriter
  obtain ⟨-, hsize, hinside, -⟩ := hholds.reader wanted out hreader
  have hlen := hholds.len
  refine ⟨by omega, by omega, ?_⟩
  rw [hholds.cell_in (by omega), hholds.cell_out (by omega)]
  exact (mod_ne_of_lt (by omega) (by omega)).symm

theorem run_apart_filling :
    ([.write [7], .copyIn, .commit, .write [8], .read 4].foldl step (new 0 2)).writeEnd + 0 ≠
      ([.write [7], .copyIn, .commit, .write [8], .read 4].foldl step (new 0 2)).start + 0 :=
  (run_apart 0 (by decide) [.write [7], .copyIn, .commit, .write [8], .read 4] rfl rfl
    (by decide) (by decide)).2.2

end Spsc
end Rio.Teletypewriter
