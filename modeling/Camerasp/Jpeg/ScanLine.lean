import Camerasp.Lib.Loop
import Camerasp.Timer.Failure
import Camerasp.Jpeg.Destination

/-!
# How the scan lines reach the compressor (`ImgInfo.cpp`, `jpgrdwr.cpp`)

`ImgInfo::get_scan_line` exchanges the first and the third byte of each pixel of a row, in the
buffer of the image, and returns the row's address; the loop of `write_JPEG_dat` hands the rows to
libjpeg. A pointer into the buffer is an index, and every access through one is checked: `none` is
an access outside the buffer.

Of libjpeg: `jpeg_write_scanlines` reads `3 * image_width` bytes at the pointer it is given and
advances `next_scanline` by one. The errors of `jpeg_start_compress` (an image without pixels, or
too large) are left out.

Results:
* `scanLines_eq`: the two loops as iterations over rows and pixels.
* `scanLines_rows`: where the stride is that of the rows, each row is handed once, in order, with
  its pixels exchanged once.
-/

namespace Camerasp.Jpeg

open Camerasp.Lib (Loop upTo upTo_cons upTo_eq)
open Camerasp.Timer (ImgInfo Buffer)

/-- `BMP_HEADER_SIZE`. -/
def bmpHeaderSize : UInt32 := 54

/-- The exchange in `get_scan_line`, of `*p` and `*(p + 2)`. -/
def swapPixel (p : Nat) (buffer : Buffer) : Option Buffer :=
  match buffer[p]?, buffer[p + 2]? with
  | some r, some b => some ((buffer.set p b).set (p + 2) r)
  | _, _ => none

/-- The locals of `get_scan_line`, with the buffer. -/
structure PixelLoop where
  i : UInt32
  retval : Nat
  buffer : Buffer

/-- The `for` of `get_scan_line`. -/
def pixelLoop (rowStride : UInt32) : Loop PixelLoop where
  guard s := s.i < rowStride
  body s := (swapPixel s.retval s.buffer).map fun buffer => ⟨s.i + 3, s.retval + 3, buffer⟩

/-- `BMP_HEADER_SIZE + scan_line * row_stride`, on `unsigned int`. -/
def scanLineIndex (img : ImgInfo) (scanLine : Int32) : UInt32 :=
  bmpHeaderSize + scanLine.toUInt32 * img.rowStride

/-- `get_scan_line`: the index it returns the address of, and the buffer then. The last argument
is not used. -/
def getScanLine (img : ImgInfo) (scanLine _stride : Int32) : Option (Nat × Buffer) :=
  let retval := (scanLineIndex img scanLine).toNat
  ((pixelLoop img.rowStride).run img.rowStride.toNat ⟨0, retval, img.buffer⟩).map
    fun s => (retval, s.buffer)

/-- The bytes libjpeg reads through a pointer. -/
def readBytes (p n : Nat) (buffer : Buffer) : Option Buffer :=
  if p + n ≤ buffer.length then some ((buffer.drop p).take n) else none

/-- `cinfo.next_scanline`, the buffer of the image, and the rows handed so far. -/
structure Scan where
  nextScanline : UInt32
  buffer : Buffer
  handed : List Buffer
  deriving DecidableEq

/-- A round of the loop of `write_JPEG_dat`. -/
def scanRow (img : ImgInfo) (s : Scan) : Option Scan := do
  let rowStride := (img.imageWidth * 3).toInt32
  let (row, buffer) ← getScanLine { img with buffer := s.buffer } s.nextScanline.toInt32 rowStride
  let line ← readBytes row (3 * img.imageWidth.toNat) buffer
  some ⟨s.nextScanline + 1, buffer, s.handed ++ [line]⟩

def scanLoop (img : ImgInfo) : Loop Scan where
  guard s := s.nextScanline < img.imageHeight
  body := scanRow img

/-- After `jpeg_start_compress`. -/
def Scan.start (img : ImgInfo) : Scan := ⟨0, img.buffer, []⟩

/-- The loop of `write_JPEG_dat`. -/
def scanLines (img : ImgInfo) : Option Scan :=
  (scanLoop img).run img.imageHeight.toNat (.start img)

/-! ## One pixel -/

variable {b b' : Buffer} {p n : Nat}

theorem swapPixel_some (h : swapPixel p b = some b') :
    ∃ x y, b[p]? = some x ∧ b[p + 2]? = some y ∧ b' = (b.set p y).set (p + 2) x := by
  unfold swapPixel at h
  split at h
  · rename_i x y hx hy
    exact ⟨x, y, hx, hy, (Option.some.inj h).symm⟩
  · cases h

theorem swapPixel_append (a t : Buffer) (x y z : UInt8) :
    swapPixel a.length (a ++ x :: y :: z :: t) = some (a ++ z :: y :: x :: t) := by
  simp [swapPixel]

theorem swapPixel_length (h : swapPixel p b = some b') : b'.length = b.length := by
  obtain ⟨x, y, -, -, rfl⟩ := swapPixel_some h
  rw [List.length_set, List.length_set]

theorem swapPixel_lt (h : swapPixel p b = some b') : p + 2 < b.length := by
  obtain ⟨x, y, -, hy, -⟩ := swapPixel_some h
  exact (List.getElem?_eq_some_iff.mp hy).1

/-- The rest of the buffer stays. -/
theorem swapPixel_frame (h : swapPixel p b = some b') {i : Nat} (hp : i ≠ p) (hp2 : i ≠ p + 2) :
    b'[i]? = b[i]? := by
  obtain ⟨x, y, -, -, rfl⟩ := swapPixel_some h
  rw [List.getElem?_set_ne hp2.symm, List.getElem?_set_ne hp.symm]

theorem swapPixel_third (h : swapPixel p b = some b') : b'[p + 2]? = b[p]? := by
  have hlt := swapPixel_lt h
  obtain ⟨x, y, hx, -, rfl⟩ := swapPixel_some h
  rw [List.getElem?_set_self (by rw [List.length_set]; exact hlt), hx]

theorem set_of_getElem? {i : Nat} {x : UInt8} (h : b[i]? = some x) : b.set i x = b := by
  obtain ⟨hi, rfl⟩ := List.getElem?_eq_some_iff.mp h
  exact List.set_getElem_self hi

/-- **The exchange of two equal bytes** does nothing. -/
theorem swapPixel_self (hlt : p + 2 < b.length) (h : b[p]? = b[p + 2]?) :
    swapPixel p b = some b := by
  obtain ⟨x, hx⟩ : ∃ x, b[p + 2]? = some x := ⟨_, List.getElem?_eq_getElem hlt⟩
  have hx0 : b[p]? = some x := h.trans hx
  unfold swapPixel
  simp only [hx0, hx, set_of_getElem? hx0, set_of_getElem? hx]

/-! ## The loops as iterations -/

/-- How often `get_scan_line` goes round. -/
def pixels (rowStride : UInt32) : Nat := (rowStride.toNat + 2) / 3

theorem lt_pixels {rowStride : UInt32} {j : Nat} :
    j < pixels rowStride ↔ 3 * j < rowStride.toNat := by
  unfold pixels
  omega

/-- The exchanges in the row that begins at `p`. -/
def swapRow (p n : Nat) : Buffer → Option Buffer := upTo (fun j => swapPixel (p + 3 * j)) n

/-- The state before the pixel `k` of the row that begins at `p`. -/
def pixelAt (p k : Nat) (b : Buffer) : PixelLoop := ⟨UInt32.ofNat (3 * k), p + 3 * k, b⟩

/-- **`i` never wraps round**: the last multiple of three is `2 ^ 32 - 1`. -/
theorem pixelLoop_guard {rowStride : UInt32} {k : Nat} (hk : k ≤ pixels rowStride) (p : Nat)
    (b : Buffer) :
    (pixelLoop rowStride).guard (pixelAt p k b) = decide (k < pixels rowStride) := by
  have hlt := rowStride.toNat_lt
  have hi : (UInt32.ofNat (3 * k)).toNat = 3 * k := by
    unfold pixels at hk
    exact UInt32.toNat_ofNat_of_lt' (by simp only [UInt32.size]; omega)
  rw [pixelLoop, decide_eq_decide, pixelAt, UInt32.lt_iff_toNat_lt, hi, ← lt_pixels]

theorem pixelLoop_body (rowStride : UInt32) (p k : Nat) (b : Buffer) :
    (pixelLoop rowStride).body (pixelAt p k b) =
      (swapPixel (p + 3 * k) b).map (pixelAt p (k + 1)) := by
  have h3 : UInt32.ofNat (3 * k) + 3 = UInt32.ofNat (3 * (k + 1)) := by
    rw [Nat.mul_add, UInt32.ofNat_add]
    rfl
  simp only [pixelLoop, pixelAt, h3]
  rfl

theorem pixelLoop_run (rowStride : UInt32) (p : Nat) (b : Buffer) :
    ((pixelLoop rowStride).run rowStride.toNat ⟨0, p, b⟩).map PixelLoop.buffer =
      swapRow p (pixels rowStride) b := by
  have hle : pixels rowStride ≤ rowStride.toNat := by
    unfold pixels
    omega
  have hrun := Loop.run_count (fun _ b hk => pixelLoop_guard hk p b)
    (fun k b _ => pixelLoop_body rowStride p k b) hle b
  have hstart : (⟨0, p, b⟩ : PixelLoop) = pixelAt p 0 b := rfl
  rw [hstart, hrun, Option.map_map]
  exact Option.map_id'

/-- Where the row `k` begins, by `get_scan_line`. -/
def rowStart (img : ImgInfo) (k : Nat) : Nat :=
  (scanLineIndex img (UInt32.ofNat k).toInt32).toNat

/-- What the round for row `k` does with the buffer and the rows handed before. -/
def handRow (img : ImgInfo) (k : Nat) : Buffer × List Buffer → Option (Buffer × List Buffer)
  | (b, lines) => do
    let b ← swapRow (rowStart img k) (pixels img.rowStride) b
    let line ← readBytes (rowStart img k) (3 * img.imageWidth.toNat) b
    some (b, lines ++ [line])

/-- The state before the round for row `k`. -/
def scanAt (k : Nat) (d : Buffer × List Buffer) : Scan := ⟨UInt32.ofNat k, d.1, d.2⟩

theorem rowStart_eq (img : ImgInfo) {k : Nat} (hk : k < 2 ^ 32) :
    rowStart img k = (54 + k * img.rowStride.toNat) % 2 ^ 32 := by
  have hk' : (UInt32.ofNat k).toNat = k := UInt32.toNat_ofNat_of_lt' hk
  have h54 : bmpHeaderSize.toNat = 54 := rfl
  unfold rowStart scanLineIndex
  rw [UInt32.toUInt32_toInt32, UInt32.toNat_add, UInt32.toNat_mul, hk', h54]
  omega

theorem getScanLine_eq (img : ImgInfo) (scanLine stride : Int32) :
    getScanLine img scanLine stride =
      (swapRow (scanLineIndex img scanLine).toNat (pixels img.rowStride) img.buffer).map
        fun b => ((scanLineIndex img scanLine).toNat, b) := by
  rw [← pixelLoop_run, Option.map_map]
  rfl

theorem scanRow_at (img : ImgInfo) (k : Nat) (d : Buffer × List Buffer) :
    scanRow img (scanAt k d) = (handRow img k d).map (scanAt (k + 1)) := by
  obtain ⟨b, lines⟩ := d
  have hone : UInt32.ofNat k + 1 = UInt32.ofNat (k + 1) := by
    rw [UInt32.ofNat_add]
    rfl
  have hstart : (scanLineIndex { img with buffer := b } (UInt32.ofNat k).toInt32).toNat =
      rowStart img k := rfl
  simp only [scanRow, handRow, scanAt, getScanLine_eq, hstart, hone, bind, Option.bind_map,
    Option.map_bind]
  congr 1
  funext b
  simp only [Function.comp]
  cases readBytes (rowStart img k) (3 * img.imageWidth.toNat) b <;> rfl

theorem scanLoop_guard (img : ImgInfo) {k : Nat} (hk : k ≤ img.imageHeight.toNat)
    (d : Buffer × List Buffer) :
    (scanLoop img).guard (scanAt k d) = decide (k < img.imageHeight.toNat) := by
  have hlt := img.imageHeight.toNat_lt
  have hk' : (UInt32.ofNat k).toNat = k := UInt32.toNat_ofNat_of_lt' (by
    simp only [UInt32.size]
    omega)
  rw [scanLoop, decide_eq_decide, UInt32.lt_iff_toNat_lt, scanAt, hk']

theorem scanLoop_rounds (img : ImgInfo) {k : Nat} (hk : k ≤ img.imageHeight.toNat) :
    (scanLoop img).rounds k (.start img) =
      (upTo (handRow img) k (img.buffer, [])).map (scanAt k) :=
  Loop.rounds_count (fun _ d hj => scanLoop_guard img hj d) (fun j d _ => scanRow_at img j d) hk
    (img.buffer, [])

/-- **The loop of `write_JPEG_dat` hands one row after the other.** -/
theorem scanLines_eq (img : ImgInfo) :
    scanLines img = (upTo (handRow img) img.imageHeight.toNat (img.buffer, [])).map
      (scanAt img.imageHeight.toNat) :=
  Loop.run_count (fun _ d hj => scanLoop_guard img hj d) (fun j d _ => scanRow_at img j d)
    (Nat.le_refl _) (img.buffer, [])

/-! ## Rows without gaps -/

/-- The first and the third byte of every pixel exchanged. -/
def exchange : Buffer → Buffer
  | r :: g :: b :: rest => b :: g :: r :: exchange rest
  | rest => rest

/-- The rows as they are stored, without gaps behind the header. -/
def storedRow (img : ImgInfo) (y : Nat) : Buffer :=
  (img.buffer.drop (54 + 3 * img.imageWidth.toNat * y)).take (3 * img.imageWidth.toNat)

/-- The first `k` rows with their pixels exchanged. -/
def exchangedRows (img : ImgInfo) (k : Nat) : List Buffer :=
  (List.range k).map fun y => exchange (storedRow img y)

/-- The state after `k` rows: the header, the rows handed, the rows as they were. -/
def scanned (img : ImgInfo) (k : Nat) : Scan where
  nextScanline := UInt32.ofNat k
  buffer := img.buffer.take 54 ++ (exchangedRows img k).flatten ++
    img.buffer.drop (54 + 3 * img.imageWidth.toNat * k)
  handed := exchangedRows img k

theorem exchange_length (b : Buffer) : (exchange b).length = b.length := by
  induction b using exchange.induct with
  | case1 r g b rest ih => simp only [exchange, List.length_cons, ih]
  | case2 rest h => rw [exchange.eq_2 rest h]

/-- **A row in place**: its pixels are exchanged, what is around it stays. -/
theorem swapRow_append {row : Buffer} (h : row.length = 3 * n) (a t : Buffer) :
    swapRow a.length n (a ++ row ++ t) = some (a ++ exchange row ++ t) := by
  induction n generalizing a row with
  | zero =>
    obtain rfl : row = [] := List.length_eq_zero_iff.mp h
    rfl
  | succ n ih =>
    match row, h with
    | x :: y :: z :: row, h =>
      have hstep : (fun k => swapPixel (a.length + 3 * (k + 1))) =
          fun k => swapPixel ((a ++ [z, y, x]).length + 3 * k) := by
        funext k
        congr 1
        simp only [List.length_append, List.length_cons, List.length_nil]
        omega
      have hlen : row.length = 3 * n := by
        simp only [List.length_cons] at h
        omega
      have hrest := ih hlen (a ++ [z, y, x])
      rw [swapRow, upTo_cons, Nat.mul_zero, Nat.add_zero, List.append_assoc]
      simp only [List.cons_append]
      rw [swapPixel_append, Option.bind_some, hstep]
      simpa [swapRow, exchange] using hrest

theorem readBytes_of_le (h : p + n ≤ b.length) : readBytes p n b = some ((b.drop p).take n) :=
  if_pos h

theorem readBytes_append {row : Buffer} (h : row.length = n) (a t : Buffer) :
    readBytes a.length n (a ++ row ++ t) = some row := by
  have hle : a.length + n ≤ (a ++ row ++ t).length := by
    simp only [List.length_append]
    omega
  rw [readBytes_of_le hle, List.append_assoc, List.drop_left, List.take_left' h]

theorem exchangedRows_succ (img : ImgInfo) (k : Nat) :
    exchangedRows img (k + 1) = exchangedRows img k ++ [exchange (storedRow img k)] := by
  simp only [exchangedRows, List.range_succ, List.map_append, List.map_cons, List.map_nil]

/-- From a row on: the row, and what comes after it. -/
theorem drop_storedRow (img : ImgInfo) (k : Nat) :
    img.buffer.drop (54 + 3 * img.imageWidth.toNat * k) =
      storedRow img k ++ img.buffer.drop (54 + 3 * img.imageWidth.toNat * (k + 1)) := by
  have hnext : 54 + 3 * img.imageWidth.toNat * (k + 1) =
      54 + 3 * img.imageWidth.toNat * k + 3 * img.imageWidth.toNat := by
    rw [Nat.mul_succ, Nat.add_assoc]
  rw [storedRow, hnext, ← List.drop_drop (i := 3 * img.imageWidth.toNat),
    List.take_append_drop]

/-- A round on a buffer with the row in place. -/
theorem handRow_append {img : ImgInfo} {k : Nat} {a row : Buffer}
    (ha : rowStart img k = a.length) (hp : pixels img.rowStride = img.imageWidth.toNat)
    (hrow : row.length = 3 * img.imageWidth.toNat) (t : Buffer) (lines : List Buffer) :
    handRow img k (a ++ row ++ t, lines) =
      some (a ++ exchange row ++ t, lines ++ [exchange row]) := by
  have hex : (exchange row).length = 3 * img.imageWidth.toNat := by rw [exchange_length, hrow]
  simp only [handRow, ha, hp, swapRow_append hrow, readBytes_append hex, bind, Option.bind_some]

/-- An image whose rows are stored without gaps, and fill the buffer behind the header. -/
structure Packed (img : ImgInfo) : Prop where
  rowStride : img.rowStride = 3 * img.imageWidth
  length : img.buffer.length = 54 + 3 * img.imageWidth.toNat * img.imageHeight.toNat
  lt : 54 + 3 * img.imageWidth.toNat * img.imageHeight.toNat < 2 ^ 31

namespace Packed

variable {img : ImgInfo} (h : Packed img) {k : Nat}

include h

theorem row_end (hk : k < img.imageHeight.toNat) :
    54 + 3 * img.imageWidth.toNat * k + 3 * img.imageWidth.toNat ≤ img.buffer.length := by
  have hmul := Nat.mul_le_mul_left (3 * img.imageWidth.toNat) (Nat.succ_le_of_lt hk)
  rw [Nat.mul_succ] at hmul
  have := h.length
  omega

theorem rowStride_toNat (hk : k < img.imageHeight.toNat) :
    img.rowStride.toNat = 3 * img.imageWidth.toNat := by
  have hle := h.row_end hk
  have h3 : (3 : UInt32).toNat = 3 := rfl
  rw [h.rowStride, UInt32.toNat_mul, h3]
  have := h.length
  have := h.lt
  exact Nat.mod_eq_of_lt (by omega)

theorem storedRow_length (hk : k < img.imageHeight.toNat) :
    (storedRow img k).length = 3 * img.imageWidth.toNat := by
  have hle := h.row_end hk
  rw [storedRow, List.length_take, List.length_drop]
  omega

theorem rowStart (hk : k < img.imageHeight.toNat) :
    rowStart img k = 54 + 3 * img.imageWidth.toNat * k := by
  have hle := h.row_end hk
  have hh := img.imageHeight.toNat_lt
  rw [rowStart_eq img (by omega), h.rowStride_toNat hk, Nat.mul_comm k]
  have := h.length
  have := h.lt
  exact Nat.mod_eq_of_lt (by omega)

/-- The header and the rows handed take up the place of the rows as they were. -/
theorem handed_length (hk : k ≤ img.imageHeight.toNat) :
    (img.buffer.take 54 ++ (exchangedRows img k).flatten).length =
      54 + 3 * img.imageWidth.toNat * k := by
  induction k with
  | zero =>
    have := h.length
    simp only [exchangedRows, List.range_zero, List.map_nil, List.flatten_nil, List.append_nil,
      List.length_take]
    omega
  | succ k ih =>
    rw [exchangedRows_succ, List.flatten_concat, ← List.append_assoc, List.length_append,
      ih (by omega), exchange_length, h.storedRow_length hk, Nat.mul_succ, Nat.add_assoc]

/-- **A round hands the next row**, exchanged, and leaves everything else. -/
theorem handRow_scanned (hk : k < img.imageHeight.toNat) :
    handRow img k ((scanned img k).buffer, (scanned img k).handed) =
      some ((scanned img (k + 1)).buffer, (scanned img (k + 1)).handed) := by
  have hpixels : pixels img.rowStride = img.imageWidth.toNat := by
    rw [pixels, h.rowStride_toNat hk]
    omega
  have hstart := (h.rowStart hk).trans (h.handed_length hk.le).symm
  simp only [scanned]
  rw [drop_storedRow img k, ← List.append_assoc,
    handRow_append hstart hpixels (h.storedRow_length hk)]
  simp only [exchangedRows_succ, List.flatten_concat, List.append_assoc]

theorem upTo_handRow (hk : k ≤ img.imageHeight.toNat) :
    upTo (handRow img) k (img.buffer, []) =
      some ((scanned img k).buffer, (scanned img k).handed) := by
  have hstart : ((scanned img 0).buffer, (scanned img 0).handed) = (img.buffer, []) := by
    simp [scanned, exchangedRows]
  rw [← hstart]
  exact upTo_eq (a := fun j => ((scanned img j).buffer, (scanned img j).handed))
    fun j hj => h.handRow_scanned (by omega)

end Packed

/-- **`write_JPEG_dat` hands the rows in order**, each once, with its pixels exchanged once. No
access leaves the buffer; after `k` rows the header and the rows from `k` on are as they were. -/
theorem scanLines_rows {img : ImgInfo} (h : Packed img) :
    (∀ k ≤ img.imageHeight.toNat,
      (scanLoop img).rounds k (.start img) = some (scanned img k)) ∧
    scanLines img = some (scanned img img.imageHeight.toNat) := by
  constructor
  · intro k hk
    rw [scanLoop_rounds img hk, h.upTo_handRow hk]
    rfl
  · rw [scanLines_eq, h.upTo_handRow (Nat.le_refl _)]
    rfl

/-- Two rows of one pixel. -/
def twoRows : ImgInfo where
  buffer := List.replicate 54 0 ++ [1, 2, 3, 4, 5, 6]
  imageHeight := 2
  imageWidth := 1
  rowStride := 3
  quality := 100

theorem scanLines_rows_two : scanLines twoRows =
    some ⟨2, List.replicate 54 0 ++ [3, 2, 1, 6, 5, 4], [[3, 2, 1], [6, 5, 4]]⟩ :=
  (scanLines_rows (show Packed twoRows from ⟨rfl, rfl, by decide⟩)).2

end Camerasp.Jpeg
