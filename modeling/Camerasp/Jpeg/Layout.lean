import Camerasp.Jpeg.ScanLine

/-!
# Where the rows of a BMP file lie in the frame buffer

The encoder of the camera is left at `RASPICAM_ENCODING_BMP`: what `grabPicture` hands to
`write_JPEG_dat` is a BMP file. Its rows are padded to a multiple of four bytes, while
`getImageBufferSize` and `get_scan_line` reckon with `3 * width` bytes a row, on `unsigned int`.

Results:
* `Bmp.bytes_row`: a file's rows begin `paddedRow` bytes apart.
* `frameBuffer_fits_iff`: the buffer holds the file and `get_scan_line` finds its rows exactly
  where the width is a multiple of four and the size is below `2 ^ 32`.
-/

namespace Camerasp.Jpeg

open Camerasp.Timer (ImgInfo Buffer Camera)

/-- The bytes of a stored row of `w` pixels. -/
def paddedRow (w : Nat) : Nat := (3 * w + 3) / 4 * 4

/-- A 24-bit BMP file without compression: each row as it is stored, with its padding. -/
structure Bmp (w h : Nat) where
  header : Buffer
  stored : List (Buffer × Buffer)
  header_length : header.length = 54
  stored_length : stored.length = h
  row_length : ∀ r ∈ stored, r.1.length = 3 * w
  padding_length : ∀ r ∈ stored, r.2.length = paddedRow w - 3 * w

namespace Bmp

variable {w h : Nat} (bmp : Bmp w h)

/-- The file. -/
def bytes : Buffer := bmp.header ++ (bmp.stored.map fun r => r.1 ++ r.2).flatten

/-- The pixels of the stored row `y`. -/
def row (y : Nat) : Option Buffer := bmp.stored[y]?.map Prod.fst

end Bmp

/-- The bytes behind the address that `get_scan_line` takes. -/
def selected (img : ImgInfo) (y : Nat) : Option Buffer :=
  readBytes (rowStart img y) (3 * img.imageWidth.toNat) img.buffer

/-- `takePicture` leaves the file at the start of a buffer that can hold it. -/
def Emits (c : Camera) (file : Buffer) : Prop :=
  file.length ≤ c.getImageBufferSize.toNat → file <+: c.frame.buffer

/-- Every file of this size has room, and its rows are those that `get_scan_line` selects. -/
def Fits (width height : UInt32) : Prop :=
  ∀ (c : Camera) (bmp : Bmp width.toNat height.toNat), c.width = width → c.height = height →
    Emits c bmp.bytes →
      bmp.bytes.length ≤ c.getImageBufferSize.toNat ∧
        ∀ y < height.toNat, selected c.frame y = bmp.row y

/-! ## The file -/

theorem le_paddedRow (w : Nat) : 3 * w ≤ paddedRow w := by
  unfold paddedRow
  omega

/-- Only a multiple of four pixels needs no padding. -/
theorem paddedRow_eq_iff {w : Nat} : paddedRow w = 3 * w ↔ 4 ∣ w := by
  unfold paddedRow
  omega

theorem length_flatten_of_forall {n : Nat} {ls : List Buffer} (h : ∀ l ∈ ls, l.length = n) :
    ls.flatten.length = n * ls.length := by
  induction ls with
  | nil => rfl
  | cons l ls ih =>
    have hl := h l List.mem_cons_self
    have hls := ih fun m hm => h m (List.mem_cons_of_mem l hm)
    rw [List.flatten_cons, List.length_append, hl, hls, List.length_cons, Nat.mul_succ,
      Nat.add_comm]

namespace Bmp

variable {w h : Nat} (bmp : Bmp w h)

/-- The stored rows as they follow each other. -/
theorem length_rows {rows : List (Buffer × Buffer)} (hr : ∀ r ∈ rows, r ∈ bmp.stored) :
    (rows.map fun r => r.1 ++ r.2).flatten.length = paddedRow w * rows.length := by
  rw [length_flatten_of_forall (n := paddedRow w), List.length_map]
  intro l hl
  obtain ⟨r, hmem, rfl⟩ := List.mem_map.mp hl
  have := le_paddedRow w
  rw [List.length_append, bmp.row_length r (hr r hmem), bmp.padding_length r (hr r hmem)]
  omega

theorem length_bytes : bmp.bytes.length = 54 + paddedRow w * h := by
  rw [bytes, List.length_append, bmp.header_length, bmp.length_rows fun _ hr => hr,
    bmp.stored_length]

/-- **The stored row `y` begins `paddedRow w * y` bytes behind the header.** -/
theorem bytes_row {y : Nat} (hy : y < h) :
    ∃ a row t, bmp.row y = some row ∧ bmp.bytes = a ++ row ++ t ∧
      a.length = 54 + paddedRow w * y ∧ row.length = 3 * w := by
  have hlt : y < bmp.stored.length := by rw [bmp.stored_length]; exact hy
  have hsplit : bmp.stored =
      bmp.stored.take y ++ bmp.stored[y] :: bmp.stored.drop (y + 1) := by
    rw [← List.drop_eq_getElem_cons hlt, List.take_append_drop]
  refine ⟨bmp.header ++ ((bmp.stored.take y).map fun r => r.1 ++ r.2).flatten, bmp.stored[y].1,
    bmp.stored[y].2 ++ ((bmp.stored.drop (y + 1)).map fun r => r.1 ++ r.2).flatten, ?_, ?_, ?_, ?_⟩
  · rw [row, List.getElem?_eq_getElem hlt]
    rfl
  · rw [bytes]
    conv_lhs => rw [hsplit]
    simp only [List.map_append, List.map_cons, List.flatten_append, List.flatten_cons,
      List.append_assoc]
  · rw [List.length_append, bmp.header_length,
      bmp.length_rows fun r hr => List.mem_of_mem_take hr, List.length_take_of_le hlt.le]
  · exact bmp.row_length _ (List.getElem_mem hlt)

/-- A file of zeros. -/
def zero (w h : Nat) : Bmp w h where
  header := List.replicate 54 0
  stored := List.replicate h (List.replicate (3 * w) 0, List.replicate (paddedRow w - 3 * w) 0)
  header_length := List.length_replicate
  stored_length := List.length_replicate
  row_length r hr := by rw [List.eq_of_mem_replicate hr, List.length_replicate]
  padding_length r hr := by rw [List.eq_of_mem_replicate hr, List.length_replicate]

end Bmp

/-! ## The buffer -/

/-- A device that hands over the file, whatever the buffer. -/
def fileCamera (width height : UInt32) (file : Buffer) : Camera where
  height := height
  width := width
  takePicture _ length := (0, file, length)

theorem getImageBufferSize_toNat (c : Camera) :
    c.getImageBufferSize.toNat = (c.width.toNat * c.height.toNat * 3 + 54) % 2 ^ 32 := by
  have h3 : (3 : UInt32).toNat = 3 := rfl
  have h54 : (54 : UInt32).toNat = 54 := rfl
  rw [Timer.Camera.getImageBufferSize, UInt32.toNat_add, UInt32.toNat_mul, UInt32.toNat_mul, h3,
    h54]
  omega

/-- A buffer that holds the file leaves no room for padding, nor for a size that wraps round. -/
theorem fits_iff_of_le {w h : Nat} (hh : 1 ≤ h) :
    54 + paddedRow w * h ≤ (w * h * 3 + 54) % 2 ^ 32 ↔ 4 ∣ w ∧ 54 + 3 * w * h < 2 ^ 32 := by
  have hle : 3 * w * h ≤ paddedRow w * h := Nat.mul_le_mul_right h (le_paddedRow w)
  have heq : w * h * 3 = 3 * w * h := by rw [Nat.mul_comm, Nat.mul_assoc]
  rw [heq]
  constructor
  · intro hfit
    have hmod := Nat.mod_le (3 * w * h + 54) (2 ^ 32)
    have hlt := Nat.mod_lt (3 * w * h + 54) (show 0 < 2 ^ 32 by decide)
    refine ⟨?_, by omega⟩
    have hrow : paddedRow w * h = 3 * w * h := by omega
    exact paddedRow_eq_iff.mp (Nat.eq_of_mul_eq_mul_right hh hrow)
  · rintro ⟨h4, hlt⟩
    rw [paddedRow_eq_iff.mpr h4, Nat.mod_eq_of_lt (by omega), Nat.add_comm]

/-- The stride of `grabPicture` is the length of a row, where the size does not wrap round. -/
theorem frame_rowStart {c : Camera} {y : Nat} (hy : y < c.height.toNat)
    (hlt : 54 + 3 * c.width.toNat * c.height.toNat < 2 ^ 32) :
    rowStart c.frame y = 54 + 3 * c.width.toNat * y := by
  have hmul := Nat.mul_le_mul_left (3 * c.width.toNat) (Nat.succ_le_of_lt hy)
  rw [Nat.mul_succ] at hmul
  have hh := c.height.toNat_lt
  have h3 : (3 : UInt32).toNat = 3 := rfl
  have hstride : c.frame.rowStride.toNat = 3 * c.width.toNat := by
    rw [Timer.Camera.frame, UInt32.toNat_mul, h3, Nat.mul_comm]
    exact Nat.mod_eq_of_lt (by omega)
  rw [rowStart_eq _ (by omega), hstride, Nat.mul_comm y]
  exact Nat.mod_eq_of_lt (by omega)

/-- **The buffer fits the file exactly where no row is padded** and the size does not wrap
round. -/
theorem frameBuffer_fits_iff {width height : UInt32} (hh : 1 ≤ height) :
    Fits width height ↔
      4 ∣ width.toNat ∧ 54 + 3 * width.toNat * height.toNat < 2 ^ 32 := by
  have hh' : 1 ≤ height.toNat := UInt32.le_iff_toNat_le.mp hh
  rw [← fits_iff_of_le hh']
  constructor
  · intro h
    have hfit := (h (fileCamera width height (Bmp.zero width.toNat height.toNat).bytes)
      (Bmp.zero width.toNat height.toNat) rfl rfl fun _ => List.prefix_refl _).1
    rw [Bmp.length_bytes, getImageBufferSize_toNat] at hfit
    exact hfit
  · rintro hsize c bmp rfl rfl hemits
    have hroom : bmp.bytes.length ≤ c.getImageBufferSize.toNat := by
      rw [bmp.length_bytes, getImageBufferSize_toNat]
      exact hsize
    refine ⟨hroom, fun y hy => ?_⟩
    obtain ⟨h4, hlt⟩ := (fits_iff_of_le hh').mp hsize
    obtain ⟨t, ht⟩ := hemits hroom
    obtain ⟨a, row, u, hrow, hbytes, ha, hlen⟩ := bmp.bytes_row hy
    rw [paddedRow_eq_iff.mpr h4, ← frame_rowStart hy hlt] at ha
    rw [selected, ← ht, hbytes, List.append_assoc _ u t, ← ha]
    exact (readBytes_append hlen a (u ++ t)).trans hrow.symm

/-- The default size. -/
theorem frameBuffer_fits_default : Fits 640 480 ↔ 4 ∣ 640 ∧ 54 + 3 * 640 * 480 < 2 ^ 32 :=
  frameBuffer_fits_iff (by decide)

/-- The row of one pixel takes four bytes of the file. -/
theorem not_fits_one : ¬ ∀ width height : UInt32, 1 ≤ width → 1 ≤ height → Fits width height := by
  intro h
  have hfit := (h 1 1 (by decide) (by decide) (fileCamera 1 1 (Bmp.zero 1 1).bytes) (Bmp.zero 1 1)
    rfl rfl fun _ => List.prefix_refl _).1
  exact absurd hfit (by decide)

end Camerasp.Jpeg
