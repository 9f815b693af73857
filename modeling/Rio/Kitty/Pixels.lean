import Rio.Kitty.Graphic
import Rio.Lib.Checked

/-! The pixels of a graphic: those of the payload in order, as many as its size says. -/

set_option linter.dupNamespace false

namespace Rio.Kitty
open Checked

/-! ### Sizes of 64 bits -/

/-- `pixelGraphic` on sizes of 64 bits. -/
def pixelGraphicWord (host : Host) (cmd : KittyGraphicsCommand) (data : List UInt8) :
    Outcome (Except GraphicError GraphicData) :=
  let (bytesPerPixel, _) := pixelFormat cmd.format
  if cmd.width = 0 ∨ cmd.height = 0 then .ok (.error .dimensionsRequired)
  else do
    let area ← fit 64 (cmd.width * cmd.height)
    let expectedSize ← fit 64 (area * bytesPerPixel)
    if maxSize < expectedSize then return .error .tooLarge
    else if data.length < expectedSize then return .error .invalidData
    else
      -- the capacity of the converted pixels
      let _ ← fit 64 (area * 4)
      return pixelGraphic host cmd data

/-- `createGraphicData` on sizes of 64 bits. -/
def createGraphicDataWord (codecs : Codecs) (host : Host) (cmd : KittyGraphicsCommand) :
    Outcome (Except GraphicError GraphicData) :=
  if cmd.format ≠ .png ∧ (maxDimension < cmd.width ∨ maxDimension < cmd.height) then
    .ok (.error .dimensionsTooLarge)
  else
    match rawData host cmd with
    | .error err => .ok (.error err)
    | .ok raw =>
      match decompress codecs cmd raw with
      | .error err => .ok (.error err)
      | .ok data =>
        match cmd.format with
        | .png => .ok (pngGraphic codecs host cmd data)
        | _ => pixelGraphicWord host cmd data

theorem pixelFormat_le (f : Format) : (pixelFormat f).1 ≤ 4 := by cases f <;> decide

theorem pixelGraphicWord_eq {host : Host} {cmd : KittyGraphicsCommand} (data : List UInt8)
    (hwidth : cmd.width ≤ maxDimension) (hheight : cmd.height ≤ maxDimension) :
    pixelGraphicWord host cmd data = .ok (pixelGraphic host cmd data) := by
  have harea : cmd.width * cmd.height ≤ maxDimension * maxDimension :=
    Nat.mul_le_mul hwidth hheight
  have hbytes : cmd.width * cmd.height * (pixelFormat cmd.format).1 ≤
      maxDimension * maxDimension * 4 := Nat.mul_le_mul harea (pixelFormat_le _)
  unfold maxDimension at harea hbytes
  unfold pixelGraphicWord
  dsimp only
  by_cases hempty : cmd.width = 0 ∨ cmd.height = 0
  · rw [if_pos hempty]
    unfold pixelGraphic
    dsimp only
    rw [if_pos hempty]
  rw [if_neg hempty, fit_of_lt (by omega), ok_bind, fit_of_lt (by omega), ok_bind]
  by_cases hlarge : maxSize < cmd.width * cmd.height * (pixelFormat cmd.format).1
  · rw [if_pos hlarge]
    unfold pixelGraphic
    dsimp only
    rw [if_neg hempty, if_pos hlarge]
    rfl
  by_cases hshort : data.length < cmd.width * cmd.height * (pixelFormat cmd.format).1
  · rw [if_neg hlarge, if_pos hshort]
    unfold pixelGraphic
    dsimp only
    rw [if_neg hempty, if_neg hlarge, if_pos hshort]
    rfl
  rw [if_neg hlarge, if_neg hshort, fit_of_lt (by omega), ok_bind]
  rfl

/-- The products of the sizes fit 64 bits. -/
theorem createGraphicDataWord_eq (codecs : Codecs) (host : Host) (cmd : KittyGraphicsCommand) :
    createGraphicDataWord codecs host cmd = .ok (createGraphicData codecs host cmd) := by
  unfold createGraphicDataWord createGraphicData
  split_ifs with hlarge
  · rfl
  cases rawData host cmd with
  | error err => rfl
  | ok raw =>
    dsimp only
    cases decompress codecs cmd raw with
    | error err => rfl
    | ok data =>
      dsimp only
      have hplain (hpng : cmd.format ≠ .png) :
          pixelGraphicWord host cmd data = .ok (pixelGraphic host cmd data) := by
        obtain ⟨hwidth, hheight⟩ := not_or.mp fun h => hlarge ⟨hpng, h⟩
        exact pixelGraphicWord_eq data (by omega) (by omega)
      cases hformat : cmd.format with
      | png => rfl
      | gray => exact hplain (by rw [hformat]; decide)
      | grayAlpha => exact hplain (by rw [hformat]; decide)
      | rgb24 => exact hplain (by rw [hformat]; decide)
      | rgba32 => exact hplain (by rw [hformat]; decide)

/-! ### Pixels in order -/

/-- The RGBA bytes of a pixel. -/
def rgbaPixel : Format → List UInt8 → List UInt8
  | .gray, [g] => [g, g, g, 255]
  | .grayAlpha, [g, a] => [g, g, g, a]
  | .rgb24, [r, g, b] => [r, g, b, 255]
  | _, pixel => pixel

/-- The bytes of a pixel by its number. -/
def pixelBytes (bytesPerPixel : ℕ) (data : List UInt8) (i : ℕ) : List UInt8 :=
  (data.drop (bytesPerPixel * i)).take bytesPerPixel

/-- A number of pixels in order. -/
def pixelsOf (f : Format) (data : List UInt8) (n : ℕ) : List UInt8 :=
  (List.range n).flatMap fun i => rgbaPixel f (pixelBytes (pixelFormat f).1 data i)

theorem pixelsOf_succ (f : Format) {pixel : List UInt8} (hpixel : pixel.length = (pixelFormat f).1)
    (rest : List UInt8) (n : ℕ) :
    pixelsOf f (pixel ++ rest) (n + 1) = rgbaPixel f pixel ++ pixelsOf f rest n := by
  have hfirst : pixelBytes (pixelFormat f).1 (pixel ++ rest) 0 = pixel := by
    unfold pixelBytes
    rw [Nat.mul_zero, List.drop_zero, ← hpixel, List.take_left]
  have hnext (i : ℕ) : pixelBytes (pixelFormat f).1 (pixel ++ rest) (i + 1) =
      pixelBytes (pixelFormat f).1 rest i := by
    unfold pixelBytes
    rw [Nat.mul_succ, ← hpixel, Nat.add_comm, List.drop_length_add_append]
  unfold pixelsOf
  rw [List.range_succ_eq_map, List.flatMap_cons, List.flatMap_map, hfirst]
  congr 1
  exact List.flatMap_congr fun i _ => congrArg _ (hnext i)

/-- A conversion pixel by pixel. -/
theorem convert_eq_pixelsOf {f : Format} {convert : List UInt8 → List UInt8}
    (hnil : convert [] = [])
    (hcons : ∀ pixel rest, pixel.length = (pixelFormat f).1 →
      convert (pixel ++ rest) = rgbaPixel f pixel ++ convert rest)
    (n : ℕ) {data : List UInt8} (hdata : data.length = (pixelFormat f).1 * n) :
    convert data = pixelsOf f data n := by
  induction n generalizing data with
  | zero =>
    rw [Nat.mul_zero] at hdata
    rw [List.length_eq_zero_iff.mp hdata, hnil]
    rfl
  | succ n ih =>
    rw [Nat.mul_succ] at hdata
    have hpixel : (data.take (pixelFormat f).1).length = (pixelFormat f).1 := by
      rw [List.length_take]
      omega
    have hrest : (data.drop (pixelFormat f).1).length = (pixelFormat f).1 * n := by
      rw [List.length_drop]
      omega
    rw [← List.take_append_drop (pixelFormat f).1 data, hcons _ _ hpixel,
      pixelsOf_succ f hpixel, ih hrest]

theorem rgbToRgba_eq {n : ℕ} {data : List UInt8} (hdata : data.length = 3 * n) :
    rgbToRgba data = pixelsOf .rgb24 data n := by
  refine convert_eq_pixelsOf rfl (fun pixel rest hpixel => ?_) n hdata
  obtain ⟨r, g, b, rfl⟩ := List.length_eq_three.mp hpixel
  rfl

theorem grayToRgba_eq {n : ℕ} {data : List UInt8} (hdata : data.length = 1 * n) :
    grayToRgba data = pixelsOf .gray data n := by
  refine convert_eq_pixelsOf rfl (fun pixel rest hpixel => ?_) n hdata
  obtain ⟨g, rfl⟩ := List.length_eq_one_iff.mp hpixel
  rfl

theorem grayAlphaToRgba_eq {n : ℕ} {data : List UInt8} (hdata : data.length = 2 * n) :
    grayAlphaToRgba data = pixelsOf .grayAlpha data n := by
  refine convert_eq_pixelsOf rfl (fun pixel rest hpixel => ?_) n hdata
  obtain ⟨g, a, rfl⟩ := List.length_eq_two.mp hpixel
  rfl

theorem rgba_eq {n : ℕ} {data : List UInt8} (hdata : data.length = 4 * n) :
    data = pixelsOf .rgba32 data n := by
  change id data = _
  exact convert_eq_pixelsOf rfl (fun _ _ _ => rfl) n hdata

theorem length_eq_four {pixel : List UInt8} (h : pixel.length = 4) :
    ∃ r g b a, pixel = [r, g, b, a] := by
  obtain _ | ⟨r, rest⟩ := pixel
  · cases h
  obtain ⟨g, b, a, rfl⟩ := List.length_eq_three.mp (Nat.succ.inj h)
  exact ⟨r, g, b, a, rfl⟩

/-- The flag is set when every alpha byte is full. -/
theorem opaquePixels_iff (n : ℕ) {pixels : List UInt8} (hpixels : pixels.length = 4 * n) :
    opaquePixels pixels = true ↔ ∀ i < n, pixels[4 * i + 3]? = some 255 := by
  induction n generalizing pixels with
  | zero =>
    rw [List.length_eq_zero_iff.mp hpixels]
    exact iff_of_true rfl nofun
  | succ n ih =>
    have hfour : (pixels.take 4).length = 4 := by
      rw [List.length_take]
      omega
    obtain ⟨r, g, b, a, hfirst⟩ := length_eq_four hfour
    have hrest : (pixels.drop 4).length = 4 * n := by
      rw [List.length_drop]
      omega
    have hpixels' : pixels = r :: g :: b :: a :: pixels.drop 4 := by
      conv_lhs => rw [← List.take_append_drop 4 pixels, hfirst]
      rfl
    have hnext (i : ℕ) : pixels[4 * (i + 1) + 3]? = (pixels.drop 4)[4 * i + 3]? := by
      rw [List.getElem?_drop]
      congr 1
      omega
    have hhead : pixels[4 * 0 + 3]? = some a := by
      rw [hpixels']
      rfl
    have hstep : opaquePixels pixels = (a == 255 && opaquePixels (pixels.drop 4)) := by
      conv_lhs => rw [hpixels']
      rfl
    rw [hstep, Bool.and_eq_true, beq_iff_eq, ih hrest]
    constructor
    · rintro ⟨rfl, hrest⟩ i hi
      cases i with
      | zero => exact hhead
      | succ i => exact (hnext i).trans (hrest i (Nat.lt_of_succ_lt_succ hi))
    · intro hall
      refine ⟨Option.some.inj (hhead.symm.trans (hall 0 n.succ_pos)), fun i hi => ?_⟩
      exact (hnext i).symm.trans (hall (i + 1) (Nat.succ_lt_succ hi))

theorem length_rgbaPixel {f : Format} {pixel : List UInt8}
    (h : pixel.length = (pixelFormat f).1) : (rgbaPixel f pixel).length = 4 := by
  cases f with
  | gray =>
    obtain ⟨g, rfl⟩ := List.length_eq_one_iff.mp h
    rfl
  | grayAlpha =>
    obtain ⟨g, a, rfl⟩ := List.length_eq_two.mp h
    rfl
  | rgb24 =>
    obtain ⟨r, g, b, rfl⟩ := List.length_eq_three.mp h
    rfl
  | rgba32 => exact h
  | png => exact h

/-- The pixels of a list with bytes enough for them lie inside it. -/
theorem mul_pixel_le {k n i : ℕ} (hi : i < n) : k * i + k ≤ k * n :=
  Nat.mul_succ k i ▸ Nat.mul_le_mul_left k hi

theorem length_pixelsOf {f : Format} {n : ℕ} {data : List UInt8}
    (hdata : (pixelFormat f).1 * n ≤ data.length) : (pixelsOf f data n).length = 4 * n := by
  have hpixel (i : ℕ) (hi : i ∈ List.range n) :
      (rgbaPixel f (pixelBytes (pixelFormat f).1 data i)).length = 4 := by
    have hle := mul_pixel_le (k := (pixelFormat f).1) (List.mem_range.mp hi)
    refine length_rgbaPixel ?_
    unfold pixelBytes
    rw [List.length_take, List.length_drop]
    omega
  unfold pixelsOf
  rw [List.length_flatMap, List.map_congr_left hpixel, List.map_const', List.sum_replicate,
    List.length_range, smul_eq_mul, mul_comm]

/-- Only the bytes of the pixels are read. -/
theorem pixelsOf_take (f : Format) (data : List UInt8) (n : ℕ) :
    pixelsOf f (data.take ((pixelFormat f).1 * n)) n = pixelsOf f data n := by
  unfold pixelsOf
  refine List.flatMap_congr fun i hi => congrArg _ ?_
  have hle := mul_pixel_le (k := (pixelFormat f).1) (List.mem_range.mp hi)
  unfold pixelBytes
  rw [List.drop_take, List.take_take, min_eq_left (by omega)]

theorem rgbToRgba_isOpaque (data : List UInt8) : opaquePixels (rgbToRgba data) = true := by
  fun_induction rgbToRgba data with
  | case1 r g b rest ih => exact ih
  | case2 => rfl

theorem grayToRgba_isOpaque (data : List UInt8) : opaquePixels (grayToRgba data) = true := by
  fun_induction grayToRgba data with
  | case1 g rest ih => exact ih
  | case2 => rfl

/-- The conversion of a format gives its pixels, and whether they are opaque. -/
theorem pixelFormat_convert {f : Format} (hf : f ≠ .png) {n : ℕ} {data : List UInt8}
    (hdata : data.length = (pixelFormat f).1 * n) :
    (pixelFormat f).2 data = (pixelsOf f data n, opaquePixels (pixelsOf f data n)) := by
  cases f with
  | png => exact absurd rfl hf
  | gray =>
    rw [← grayToRgba_eq hdata, grayToRgba_isOpaque]
    rfl
  | grayAlpha =>
    rw [← grayAlphaToRgba_eq hdata]
    rfl
  | rgb24 =>
    rw [← rgbToRgba_eq hdata, rgbToRgba_isOpaque]
    rfl
  | rgba32 =>
    rw [← rgba_eq hdata]
    rfl

/-! ### The graphic -/

/-- A decoded PNG file has pixels, and four bytes for each. -/
def Codecs.SizedPng (codecs : Codecs) : Prop :=
  ∀ data width height pixels, codecs.decodePng data = some (width, height, pixels) →
    1 ≤ width ∧ 1 ≤ height ∧ pixels.length = 4 * (width * height)

/-- Where the pixels of a graphic come from. -/
def PixelsFrom (codecs : Codecs) (cmd : KittyGraphicsCommand) (data : List UInt8)
    (g : GraphicData) : Prop :=
  if cmd.format = .png then codecs.decodePng data = some (g.width, g.height, g.pixels)
  else g.width = cmd.width ∧ g.height = cmd.height ∧
    (pixelFormat cmd.format).1 * (g.width * g.height) ≤ data.length ∧
      g.pixels = pixelsOf cmd.format data (g.width * g.height)

/-- The pixels of a graphic are those that were sent, as many as its size says. -/
structure Pixels (codecs : Codecs) (host : Host) (cmd : KittyGraphicsCommand) (g : GraphicData) :
    Prop where
  width : 1 ≤ g.width ∧ g.width ≤ maxDimension
  height : 1 ≤ g.height ∧ g.height ≤ maxDimension
  size : g.pixels.length = 4 * (g.width * g.height)
  sent : ∃ raw data, rawData host cmd = .ok raw ∧ decompress codecs cmd raw = .ok data ∧
    PixelsFrom codecs cmd data g
  alpha : g.isOpaque = true ↔ ∀ i < g.width * g.height, g.pixels[4 * i + 3]? = some 255

theorem pixelGraphic_cases {host : Host} {cmd : KittyGraphicsCommand} {data : List UInt8}
    {g : GraphicData} (hpng : cmd.format ≠ .png) (h : pixelGraphic host cmd data = .ok g) :
    1 ≤ cmd.width ∧ 1 ≤ cmd.height ∧ g.width = cmd.width ∧ g.height = cmd.height ∧
      (pixelFormat cmd.format).1 * (g.width * g.height) ≤ data.length ∧
        g.pixels = pixelsOf cmd.format data (g.width * g.height) ∧
          g.isOpaque = opaquePixels g.pixels := by
  unfold pixelGraphic at h
  dsimp only at h
  by_cases hempty : cmd.width = 0 ∨ cmd.height = 0
  · rw [if_pos hempty] at h
    cases h
  by_cases hlarge : maxSize < cmd.width * cmd.height * (pixelFormat cmd.format).1
  · rw [if_neg hempty, if_pos hlarge] at h
    cases h
  by_cases hshort : data.length < cmd.width * cmd.height * (pixelFormat cmd.format).1
  · rw [if_neg hempty, if_neg hlarge, if_pos hshort] at h
    cases h
  rw [if_neg hempty, if_neg hlarge, if_neg hshort, mul_comm _ (pixelFormat cmd.format).1] at h
  rw [mul_comm _ (pixelFormat cmd.format).1] at hshort
  have hconvert := pixelFormat_convert hpng (List.length_take_of_le (Nat.le_of_not_lt hshort))
  rw [pixelsOf_take] at hconvert
  rw [hconvert] at h
  cases h
  exact ⟨by omega, by omega, rfl, rfl, Nat.le_of_not_lt hshort, rfl, rfl⟩

theorem pngGraphic_cases {codecs : Codecs} {host : Host} {cmd : KittyGraphicsCommand}
    {data : List UInt8} {g : GraphicData} (h : pngGraphic codecs host cmd data = .ok g) :
    codecs.decodePng data = some (g.width, g.height, g.pixels) ∧ g.width ≤ maxDimension ∧
      g.height ≤ maxDimension ∧ g.isOpaque = opaquePixels g.pixels := by
  unfold pngGraphic at h
  split at h
  · cases h
  next width height pixels hdecode =>
    split_ifs at h with hlarge
    cases h
    obtain ⟨hwidth, hheight⟩ := not_or.mp hlarge
    exact ⟨hdecode, Nat.le_of_not_lt hwidth, Nat.le_of_not_lt hheight, rfl⟩

theorem createGraphicData_cases {codecs : Codecs} {host : Host} {cmd : KittyGraphicsCommand}
    {g : GraphicData} (h : createGraphicData codecs host cmd = .ok g) :
    (cmd.format = .png ∨ cmd.width ≤ maxDimension ∧ cmd.height ≤ maxDimension) ∧
      ∃ raw data, rawData host cmd = .ok raw ∧ decompress codecs cmd raw = .ok data ∧
        if cmd.format = .png then pngGraphic codecs host cmd data = .ok g
        else pixelGraphic host cmd data = .ok g := by
  unfold createGraphicData at h
  by_cases hlarge : cmd.format ≠ .png ∧ (maxDimension < cmd.width ∨ maxDimension < cmd.height)
  · rw [if_pos hlarge] at h
    cases h
  rw [if_neg hlarge] at h
  have hsize : cmd.format = .png ∨ cmd.width ≤ maxDimension ∧ cmd.height ≤ maxDimension := by
    by_cases hpng : cmd.format = .png
    · exact .inl hpng
    · obtain ⟨hwidth, hheight⟩ := not_or.mp fun h => hlarge ⟨hpng, h⟩
      exact .inr ⟨Nat.le_of_not_lt hwidth, Nat.le_of_not_lt hheight⟩
  cases hraw : rawData host cmd with
  | error err =>
    rw [hraw] at h
    cases h
  | ok raw =>
    rw [hraw] at h
    dsimp only at h
    cases hdata : decompress codecs cmd raw with
    | error err =>
      rw [hdata] at h
      cases h
    | ok data =>
      rw [hdata] at h
      dsimp only at h
      refine ⟨hsize, raw, data, rfl, hdata, ?_⟩
      split at h
      next hpng => exact (if_pos hpng).mpr h
      next hpng => exact (if_neg hpng).mpr h

end Rio.Kitty
