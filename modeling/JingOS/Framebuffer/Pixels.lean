import JingOS.Framebuffer.Writer

/-!
# The pixels in the buffer

The first layer above the raw buffer: which pixels are lit. A byte belongs to one channel of
one pixel, and whether a pixel is lit decides all its bytes.

* `Image`, `imageByte`, `Renders` — the buffer of an image;
* `setPixel_renders`, `drawGlyph_renders` — drawing replaces pixels of the image;
* `scrollOneRow_renders` — moving all bytes down by a row of characters moves the image up by
  eight pixels, whatever the stride, the height and the padding are.
-/

namespace JingOS.Framebuffer

open Checked

/-- Which pixels are lit, by `x` and `y`. -/
abbrev Image := ℕ → ℕ → Bool

/-- How many bytes of a pixel carry its colour; the others are always zero. -/
def colorBytes : PixelFormat → ℕ
  | .rgb => 3
  | .bgr => 3
  | .u8 => 1
  | .other => 0

/-- The byte at `i` of a buffer that shows the image. -/
def imageByte (info : FrameBufferInfo) (image : Image) (i : ℕ) : UInt8 :=
  if i % info.bytesPerPixel < colorBytes info.pixelFormat ∧
      image (i / info.bytesPerPixel % info.stride) (i / info.bytesPerPixel / info.stride) then 0xff
  else 0x00

/-- Bit `x` of a byte, counted from the lowest. -/
def bitSet (byte : UInt8) (x : ℕ) : Bool := byte.toNat / 2 ^ x % 2 = 1

namespace Image

/-- Set one pixel. -/
def light (image : Image) (x y : ℕ) (on : Bool) : Image :=
  fun x' y' => if x' = x ∧ y' = y then on else image x' y'

/-- Set the eight by eight pixels of a glyph. -/
def stamp (image : Image) (originX originY : ℕ) (glyph : Fin 8 → UInt8) : Image := fun x y =>
  if h : (originX ≤ x ∧ x < originX + 8) ∧ (originY ≤ y ∧ y < originY + 8) then
    bitSet (glyph ⟨y - originY, by omega⟩) (x - originX)
  else image x y

end Image

namespace FrameBufferWriter

/-- The buffer shows the image, in all its bytes. -/
def Renders (w : FrameBufferWriter) (image : Image) : Prop :=
  ∀ i < w.buffer.length, w.buffer[i]? = some (imageByte w.info image i)

/-! ## One pixel -/

theorem storeIf_eq {xs : List UInt8} {i n : ℕ} (h : xs.length = n) (x : UInt8) :
    (if n > i then store xs i x else pure xs) = .ok (xs.set i x) := by
  split
  · exact store_eq (by omega) x
  · rw [List.set_eq_of_length_le (by omega)]
    rfl

theorem paintColor_eq {pixel : List UInt8} {n : ℕ} (hlen : pixel.length = n) (hpos : 0 < n)
    (color : UInt8) : paintColor n pixel color =
      .ok ((((pixel.set 0 color).set 1 color).set 2 color).set 3 0x00) := by
  unfold paintColor
  rw [store_eq (by omega)]
  simp only [bind, Except.bind]
  rw [storeIf_eq (by rw [List.length_set]; exact hlen)]
  simp only
  rw [storeIf_eq (by rw [List.length_set, List.length_set]; exact hlen)]
  simp only
  rw [storeIf_eq (by rw [List.length_set, List.length_set, List.length_set]; exact hlen)]

/-- Painting decides every byte of a pixel whose other bytes are zero. -/
theorem paintPixel_spec {info : FrameBufferInfo} {pixel : List UInt8}
    (hlen : pixel.length = info.bytesPerPixel) (hpos : 0 < info.bytesPerPixel)
    (hzero : ∀ i < pixel.length, colorBytes info.pixelFormat ≤ i → pixel[i]? = some 0)
    (color : UInt8) : Returns (paintPixel info pixel color) fun painted =>
      painted.length = pixel.length ∧ ∀ i < pixel.length,
        painted[i]? = some (if i < colorBytes info.pixelFormat then color else 0) := by
  -- three bytes take the color, in whatever order, and a fourth stays as it was
  have hcolored : (∀ i < pixel.length, 3 ≤ i → pixel[i]? = some 0) →
      Returns (paintColor info.bytesPerPixel pixel color) fun painted =>
        painted.length = pixel.length ∧ ∀ i < pixel.length,
          painted[i]? = some (if i < 3 then color else 0) := by
    intro hzero
    rw [paintColor_eq hlen hpos]
    refine Returns.ok ⟨by simp only [List.length_set], fun i hi => ?_⟩
    rcases Nat.lt_or_ge i 3 with hlow | hhigh
    · rw [if_pos hlow, List.getElem?_set_ne (by omega)]
      have hcase : i = 0 ∨ i = 1 ∨ i = 2 := by omega
      rcases hcase with rfl | rfl | rfl <;> simp [hi]
    · rw [if_neg (by omega)]
      by_cases hfour : i = 3
      · subst hfour
        exact List.getElem?_set_self (by simpa only [List.length_set] using hi)
      · rw [List.getElem?_set_ne (by omega), List.getElem?_set_ne (by omega),
          List.getElem?_set_ne (by omega), List.getElem?_set_ne (by omega)]
        exact hzero i hi hhigh
  unfold paintPixel
  unfold colorBytes at hzero ⊢
  cases hformat : info.pixelFormat with
  | rgb =>
    rw [hformat] at hzero
    exact hcolored hzero
  | bgr =>
    rw [hformat] at hzero
    exact hcolored hzero
  | u8 =>
    rw [hformat] at hzero
    simp only at hzero ⊢
    rw [store_eq (by omega)]
    refine Returns.ok ⟨List.length_set, fun i hi => ?_⟩
    by_cases hfirst : i = 0
    · subst hfirst
      rw [List.getElem?_set_self hi]
      rfl
    · rw [List.getElem?_set_ne (Ne.symm hfirst), if_neg (by omega)]
      exact hzero i hi (by omega)
  | other =>
    refine Returns.pure ⟨List.length_replicate, fun i hi => ?_⟩
    rw [List.getElem?_replicate, if_pos hi]
    rfl

/-- The bytes of one pixel. -/
theorem pixel_byte {info : FrameBufferInfo} {x y channel : ℕ} (hx : x < info.stride)
    (hchannel : channel < info.bytesPerPixel) :
    ((y * info.stride + x) * info.bytesPerPixel + channel) % info.bytesPerPixel = channel ∧
    ((y * info.stride + x) * info.bytesPerPixel + channel) / info.bytesPerPixel % info.stride =
      x ∧
    ((y * info.stride + x) * info.bytesPerPixel + channel) / info.bytesPerPixel / info.stride =
      y := by
  have hsplit : ∀ {n k q r : ℕ}, r < k → q * k + r = n → n / k = q ∧ n % k = r := by
    rintro n k q r hr rfl
    rw [Nat.div_mod_unique (by omega), Nat.mul_comm k, Nat.add_comm]
    exact ⟨rfl, hr⟩
  have hbyte := hsplit (q := y * info.stride + x) hchannel rfl
  have hpixel := hsplit (q := y) hx rfl
  rw [hbyte.1]
  exact ⟨hbyte.2, hpixel.2, hpixel.1⟩

/-- A byte of the pixel at `(x, y)` lies between its first byte and that of the next. -/
theorem byte_of_pixel {info : FrameBufferInfo} {x y i : ℕ} (hpos : 0 < info.bytesPerPixel)
    (hx : i / info.bytesPerPixel % info.stride = x)
    (hy : i / info.bytesPerPixel / info.stride = y) :
    (y * info.stride + x) * info.bytesPerPixel ≤ i ∧
      i < (y * info.stride + x) * info.bytesPerPixel + info.bytesPerPixel := by
  have hpixel : y * info.stride + x = i / info.bytesPerPixel := by
    rw [← hx, ← hy, Nat.mul_comm]
    exact Nat.div_add_mod _ _
  have hdiv := Nat.div_add_mod i info.bytesPerPixel
  have hmod := Nat.mod_lt i hpos
  rw [Nat.mul_comm] at hdiv
  rw [hpixel]
  omega

/-- A part of the buffer that was written anew: inside it are the new bytes. -/
theorem getElem?_splice_inside {buffer part : List UInt8} {offset stop i : ℕ}
    (hoffset : offset ≤ buffer.length) (hi : i < part.length) :
    (buffer.take offset ++ part ++ buffer.drop stop)[offset + i]? = part[i]? := by
  have htake : (buffer.take offset).length = offset := List.length_take_of_le hoffset
  rw [List.getElem?_append_left (by rw [List.length_append]; omega),
    List.getElem?_append_right (by omega), htake, Nat.add_sub_cancel_left]

/-- Outside of it nothing is changed. -/
theorem getElem?_splice_outside {buffer part : List UInt8} {offset stop i : ℕ}
    (hstop : offset + part.length = stop) (hle : stop ≤ buffer.length)
    (hi : ¬ (offset ≤ i ∧ i < stop)) :
    (buffer.take offset ++ part ++ buffer.drop stop)[i]? = buffer[i]? := by
  have htake : (buffer.take offset).length = offset := List.length_take_of_le (by omega)
  rcases Nat.lt_or_ge i offset with hbefore | hbehind
  · rw [List.append_assoc, List.getElem?_append_left (by omega), List.getElem?_take, if_pos hbefore]
  · rw [List.getElem?_append_right (by rw [List.length_append]; omega), List.length_append, htake,
      hstop, List.getElem?_drop, Nat.add_sub_cancel' (by omega)]

/-- One pixel of the buffer, one of the image. -/
theorem setPixel_renders {w : FrameBufferWriter} {image : Image}
    (hfits : Fits w.info w.buffer.length) (h : w.Renders image) {x y : ℕ}
    (hx : x < w.info.width) (hy : y < w.info.height) (on : Bool) :
    Returns (w.setPixel x y on) fun w' => SamePlace w w' ∧ w'.Renders (image.light x y on) := by
  have hin := hfits.pixel hx hy
  have hpos := hfits.bytesPos
  have hstride : x < w.info.stride := Nat.lt_of_lt_of_le hx hfits.widthLe
  have hlen := length_pixel hfits hx hy
  rw [setPixel_eq hfits hx hy]
  have hbytes := fun channel hchannel =>
    @pixel_byte w.info x y channel hstride hchannel
  have hoffset := fun i => @byte_of_pixel w.info x y i hpos
  generalize (y * w.info.stride + x) * w.info.bytesPerPixel = offset at hin hlen hbytes hoffset ⊢
  -- the bytes of the pixel as they are
  have hpixel : ∀ channel < w.info.bytesPerPixel,
      ((w.buffer.take (offset + w.info.bytesPerPixel)).drop offset)[channel]? =
        some (imageByte w.info image (offset + channel)) := by
    intro channel hchannel
    rw [List.getElem?_drop, List.getElem?_take, if_pos (by omega)]
    exact h _ (by omega)
  have hzero : ∀ i < ((w.buffer.take (offset + w.info.bytesPerPixel)).drop offset).length,
      colorBytes w.info.pixelFormat ≤ i →
      ((w.buffer.take (offset + w.info.bytesPerPixel)).drop offset)[i]? = some 0 := by
    intro i hi hcolor
    rw [hlen] at hi
    rw [hpixel i hi, imageByte, (hbytes i hi).1, if_neg (by omega)]
  rcases paintPixel_spec hlen hpos hzero (if on then 0xff else 0x00) with
    ⟨painted, heq, hpainted, hbyte⟩
  rw [hlen] at hpainted hbyte
  simp only
  rw [heq]
  refine Returns.pure ⟨⟨rfl, ?_, rfl, rfl⟩, ?_⟩
  · simp only [List.length_append, List.length_take, List.length_drop, hpainted]
    omega
  · intro i hi
    change (w.buffer.take offset ++ painted ++ w.buffer.drop _)[i]? =
      some (imageByte w.info (image.light x y on) i)
    by_cases hinside : offset ≤ i ∧ i < offset + w.info.bytesPerPixel
    · -- a byte of the pixel itself
      rcases Nat.exists_eq_add_of_le hinside.1 with ⟨channel, rfl⟩
      have hchannel : channel < w.info.bytesPerPixel := by omega
      rcases hbytes channel hchannel with ⟨hmod, hcolumn, hrow⟩
      rw [getElem?_splice_inside (by omega) (by omega), hbyte channel hchannel, imageByte, hmod,
        hcolumn, hrow]
      simp only [Image.light, and_self, if_true]
      cases on <;> simp
    · have hother : ¬ (i / w.info.bytesPerPixel % w.info.stride = x ∧
          i / w.info.bytesPerPixel / w.info.stride = y) :=
        fun hxy => hinside (hoffset i hxy.1 hxy.2)
      have hsame : imageByte w.info (image.light x y on) i = imageByte w.info image i := by
        simp only [imageByte, Image.light, if_neg hother]
      simp only [List.length_append, List.length_take, List.length_drop, hpainted] at hi
      rw [hsame, getElem?_splice_outside (by omega) hin hinside]
      exact h i (by omega)

/-! ## Glyphs -/

/-- The mask of `draw_glyph` selects bit `x`. -/
theorem bitOn_eq (byte : UInt8) (x : ℕ) : bitOn byte x = bitSet byte x :=
  Nat.testBit_eq_decide_div_mod_eq

/-- What the loops of `draw_glyph` do to the image. -/
def lightAll (originX originY : ℕ) (glyph : Glyph) (image : Image)
    (pixels : List (Fin 8 × Fin 8)) : Image :=
  pixels.foldl (fun image pixel =>
    image.light (originX + pixel.2) (originY + pixel.1) (bitSet (glyph pixel.1) pixel.2)) image

theorem lightAll_eq (originX originY : ℕ) (glyph : Glyph) (image : Image)
    (pixels : List (Fin 8 × Fin 8)) (pixel : Fin 8 × Fin 8) :
    lightAll originX originY glyph image pixels (originX + pixel.2) (originY + pixel.1) =
      if pixel ∈ pixels then bitSet (glyph pixel.1) pixel.2
      else image (originX + pixel.2) (originY + pixel.1) := by
  induction pixels generalizing image with
  | nil => rfl
  | cons head pixels ih =>
    change lightAll _ _ _ (image.light _ _ _) pixels _ _ = _
    rw [ih]
    by_cases hmem : pixel ∈ pixels
    · rw [if_pos hmem, if_pos (List.mem_cons_of_mem _ hmem)]
    · rw [if_neg hmem]
      by_cases heq : pixel = head
      · subst heq
        rw [if_pos List.mem_cons_self]
        simp [Image.light]
      · have hne : ¬ (originX + pixel.2.val = originX + head.2.val ∧
            originY + pixel.1.val = originY + head.1.val) := by
          rintro ⟨hx, hy⟩
          exact heq (Prod.ext (Fin.ext (by omega)) (Fin.ext (by omega)))
        rw [if_neg (by simp [heq, hmem])]
        exact if_neg hne

/-- Pixels beside the glyph stay as they are. -/
theorem lightAll_outside {originX originY x y : ℕ} (glyph : Glyph) (image : Image)
    (pixels : List (Fin 8 × Fin 8))
    (h : ¬ ((originX ≤ x ∧ x < originX + 8) ∧ (originY ≤ y ∧ y < originY + 8))) :
    lightAll originX originY glyph image pixels x y = image x y := by
  induction pixels generalizing image with
  | nil => rfl
  | cons head pixels ih =>
    change lightAll _ _ _ (image.light _ _ _) pixels _ _ = _
    rw [ih]
    have hx := head.2.isLt
    have hy := head.1.isLt
    exact if_neg (by omega)

theorem mem_glyphPixels (pixel : Fin 8 × Fin 8) : pixel ∈ glyphPixels := by
  unfold glyphPixels
  rw [List.mem_flatMap]
  exact ⟨pixel.1, List.mem_finRange _, List.mem_map.mpr ⟨pixel.2, List.mem_finRange _, rfl⟩⟩

/-- The 64 pixels of the loop are all of the glyph. -/
theorem lightAll_glyphPixels (originX originY : ℕ) (glyph : Glyph) (image : Image) :
    lightAll originX originY glyph image glyphPixels = image.stamp originX originY glyph := by
  funext x y
  unfold Image.stamp
  split
  · next h =>
    have heq := lightAll_eq originX originY glyph image glyphPixels
      (⟨y - originY, by omega⟩, ⟨x - originX, by omega⟩)
    rw [if_pos (mem_glyphPixels _)] at heq
    simp only at heq
    rw [Nat.add_sub_cancel' h.1.1, Nat.add_sub_cancel' h.2.1] at heq
    exact heq
  · next h => exact lightAll_outside glyph image glyphPixels h

/-- The glyph's 64 pixels, one after the other, are its stamp. -/
theorem drawGlyph_renders {w : FrameBufferWriter} {image : Image}
    (hfits : Fits w.info w.buffer.length) (h : w.Renders image) {originX originY : ℕ}
    (hx : originX + 8 ≤ w.info.width) (hy : originY + 8 ≤ w.info.height)
    (hbound : originX + 8 ≤ 2 ^ 64 ∧ originY + 8 ≤ 2 ^ 64) (glyph : Glyph) :
    Returns (w.drawGlyph originX originY glyph) fun w' =>
      SamePlace w w' ∧ w'.Renders (image.stamp originX originY glyph) := by
  -- one pixel after the other, in the order of the loops
  have hloop : ∀ (pixels : List (Fin 8 × Fin 8)) (w' : FrameBufferWriter) (image : Image),
      SamePlace w w' → w'.Renders image →
      Returns (pixels.foldlM (drawPixel originX originY glyph) w') fun w'' =>
        SamePlace w w'' ∧ w''.Renders (lightAll originX originY glyph image pixels) := by
    intro pixels
    induction pixels with
    | nil =>
      intro w' image hplace hrenders
      exact Returns.pure ⟨hplace, hrenders⟩
    | cons pixel pixels ih =>
      intro w' image hplace hrenders
      have hpx := pixel.2.isLt
      have hpy := pixel.1.isLt
      rw [List.foldlM_cons]
      simp only [drawPixel, add_eq (a := originX) (b := pixel.2) (by omega),
        add_eq (a := originY) (b := pixel.1) (by omega)]
      refine (setPixel_renders (hplace.fits hfits) hrenders (x := originX + pixel.2)
        (y := originY + pixel.1) (by rw [hplace.info]; omega) (by rw [hplace.info]; omega)
        (bitOn (glyph pixel.1) pixel.2)).bind ?_
      rintro w'' ⟨hplace', hrenders'⟩
      rw [bitOn_eq] at hrenders'
      exact ih w'' _ (hplace.trans hplace') hrenders'
  have hdraw := hloop glyphPixels w image (SamePlace.refl w) h
  rw [lightAll_glyphPixels] at hdraw
  exact hdraw

/-! ## Scrolling -/

/-- Eight rows of pixels further down in the buffer. -/
theorem byte_below (info : FrameBufferInfo) (hpos : 0 < info.bytesPerPixel)
    (hstride : 0 < info.stride) (i : ℕ) :
    (i + info.stride * info.bytesPerPixel * charHeight) % info.bytesPerPixel =
      i % info.bytesPerPixel ∧
    (i + info.stride * info.bytesPerPixel * charHeight) / info.bytesPerPixel % info.stride =
      i / info.bytesPerPixel % info.stride ∧
    (i + info.stride * info.bytesPerPixel * charHeight) / info.bytesPerPixel / info.stride =
      i / info.bytesPerPixel / info.stride + charHeight := by
  have hbytes : info.stride * info.bytesPerPixel * charHeight =
      charHeight * info.stride * info.bytesPerPixel := by
    rw [Nat.mul_comm, Nat.mul_assoc]
  rw [hbytes, Nat.add_mul_mod_self_right, Nat.add_mul_div_right _ _ hpos,
    Nat.add_mul_mod_self_right, Nat.add_mul_div_right _ _ hstride]
  exact ⟨rfl, rfl, rfl⟩

/-- A byte behind the described part of the buffer belongs to no pixel of the screen. -/
theorem height_le_of_byte {info : FrameBufferInfo} {length i : ℕ} (hfits : Fits info length)
    (hstride : 0 < info.stride) (hi : length ≤ i) :
    info.height ≤ i / info.bytesPerPixel / info.stride := by
  have hpos := hfits.bytesPos
  have hsize := hfits.sizeLe
  rw [Nat.le_div_iff_mul_le hstride, Nat.le_div_iff_mul_le hpos, Nat.mul_comm info.height]
  omega

/-- A buffer of zeros is the dark image. -/
theorem zeros_render {info : FrameBufferInfo} {image : Image} {length column row : ℕ}
    (h : ∀ i < length, image (i / info.bytesPerPixel % info.stride)
      (i / info.bytesPerPixel / info.stride) = false) :
    Renders { buffer := List.replicate length 0, info, column, row } image := by
  intro i hi
  have hi' : i < length := by simpa using hi
  change (List.replicate length (0 : UInt8))[i]? = some (imageByte info image i)
  rw [List.getElem?_replicate, if_pos hi', imageByte, h i hi']
  simp

/-- What moves in from behind the buffer is not lit. -/
theorem dark_behind {w : FrameBufferWriter} {image : Image} (hfits : Fits w.info w.buffer.length)
    (hscreen : ∀ x y, image x y = true → x < w.info.width ∧ y < w.info.height) {i : ℕ}
    (hi : w.buffer.length ≤ i + w.info.stride * w.info.bytesPerPixel * charHeight) :
    image (i / w.info.bytesPerPixel % w.info.stride)
      (i / w.info.bytesPerPixel / w.info.stride + charHeight) = false := by
  rw [← Bool.not_eq_true]
  intro hlit
  have hon := hscreen _ _ hlit
  rcases Nat.eq_zero_or_pos w.info.stride with hzero | hstride
  · have hwidth := hfits.widthLe
    omega
  · have hlow := height_le_of_byte hfits hstride hi
    rw [(byte_below w.info hfits.bytesPos hstride i).2.2] at hlow
    omega

/-- The bytes that move are the image, moved up by a row of text. -/
theorem scrollOneRow_renders {w : FrameBufferWriter} {image : Image}
    (hfits : Fits w.info w.buffer.length) (h : w.Renders image)
    (hscreen : ∀ x y, image x y = true → x < w.info.width ∧ y < w.info.height) :
    Returns w.scrollOneRow fun w' =>
      SamePlace w w' ∧ w'.Renders fun x y => image x (y + charHeight) := by
  have hpos := hfits.bytesPos
  have hheight : charHeight = 8 := rfl
  have hbehind := fun i => @dark_behind w image hfits hscreen i
  rw [scrollOneRow_eq hfits]
  simp only
  split
  · next hfill =>
    refine Returns.ok ⟨⟨rfl, List.length_replicate, rfl, rfl⟩, zeros_render fun i hi => ?_⟩
    rcases hfill with hzero | hfull
    · -- no bytes in a row: the screen has no columns
      have hstride : w.info.stride = 0 := by
        rw [Nat.mul_eq_zero, Nat.mul_eq_zero] at hzero
        omega
      rw [← Bool.not_eq_true]
      intro hlit
      have hon := hscreen _ _ hlit
      have hwidth := hfits.widthLe
      omega
    -- one text row is the whole buffer, and nothing is lit behind it
    · exact hbehind i (by omega)
  · next hscroll =>
    have hstride : 0 < w.info.stride := by
      apply Nat.pos_of_ne_zero
      intro hzero
      rw [hzero, Nat.zero_mul, Nat.zero_mul] at hscroll
      exact hscroll (.inl rfl)
    refine Returns.ok ⟨⟨rfl, ?_, rfl, rfl⟩, ?_⟩
    · simp only [List.length_append, List.length_drop, List.length_replicate]
      omega
    · intro i hi
      simp only [List.length_append, List.length_drop, List.length_replicate] at hi
      rcases byte_below w.info hpos hstride i with ⟨hchannel, hcolumn, hbelow⟩
      have hbehind := hbehind i
      generalize w.info.stride * w.info.bytesPerPixel * charHeight = moved at *
      change (w.buffer.drop moved ++ _)[i]? = some (imageByte w.info _ i)
      -- a byte is the one that was a text row below, or one of the zeros that fill up
      by_cases hkept : i + moved < w.buffer.length
      · rw [List.getElem?_append_left (by rw [List.length_drop]; omega), List.getElem?_drop,
          Nat.add_comm, h _ hkept, imageByte, hchannel, hcolumn, hbelow]
        rfl
      · rw [List.getElem?_append_right (by rw [List.length_drop]; omega), List.getElem?_replicate,
          if_pos (by simp only [List.length_drop]; omega), imageByte, hbehind (by omega)]
        simp

end FrameBufferWriter

end JingOS.Framebuffer
