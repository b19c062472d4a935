import Camerasp.Lib.Strtol
import Camerasp.Http.Url

/-!
# Which image an `img.jpg` request gets (`httpEventHandler.cpp`)

`Handlers::request` takes the number from the query, by `isinteger`: `strtol` on the C string of
the value, its end compared with the NUL there, its `long` stored in an `int`. `isinteger` here has
`long` of any size; `isInteger` is what it comes to at 32 bits.

Results:
* `request_imageNumber`: the handler's call of `getImage`.
* `imageNumber_iff`: the number is the decimal integer that the query gives, or else 0, except
  where `Misread`.
-/

namespace Camerasp.Http

open Camerasp.Lib

/-- `isinteger`: its result, and what is at `k` then. -/
def isinteger (bits : Nat) (s : List Char) (k : Int32) : Bool × Int32 :=
  match s with
  | [] => (false, k)
  | c :: _ =>
    if !c.isDigit && c ≠ '-' && c ≠ '+' then (false, k)
    else
      let (n, p) := strtol bits (cString s)
      -- `*p == 0`
      (p.isEmpty, Int32.ofInt n)

/-- The number that `Handlers::request` gives to `getGETResponse`. -/
def imageNumber (bits : Nat) (url : UrlParser) : Int32 :=
  if url.queryKey = "prev".toList then
    let (ok, k) := isinteger bits url.queryValue 0
    if url.queryValue.isEmpty || !ok then 0 else k
  else 0

/-- The numbers of an `int`. -/
def FitsInt (n : Int) : Prop := -2 ^ 31 ≤ n ∧ n < 2 ^ 31

instance (n : Int) : Decidable (FitsInt n) := inferInstanceAs (Decidable (_ ∧ _))

/-- The number asked for: a decimal integer that is an `int`, or else 0. -/
def numberAsked (url : UrlParser) : Int :=
  if url.queryKey = "prev".toList ∧ IsDecimal url.queryValue ∧ FitsInt (decimalValue url.queryValue)
  then decimalValue url.queryValue
  else 0

/-- A decimal integer that ends at a NUL within the value, or is no `int`, and does not come to 0
on its way into the `int`. -/
def Misread (bits : Nat) (url : UrlParser) : Prop :=
  url.queryKey = "prev".toList ∧
    IsDecimal (cString url.queryValue) ∧
    (cString url.queryValue ≠ url.queryValue ∨ ¬ FitsInt (decimalValue (cString url.queryValue))) ∧
    ¬ (2 ^ 32 : Int) ∣ clampLong bits (decimalValue (cString url.queryValue))

variable {bits : Nat} {url : UrlParser} {s : List Char} {c : Char}

/-! ## `isinteger` -/

theorem not_or_sign (h : ¬ (!c.isDigit && decide (c ≠ '-') && decide (c ≠ '+')) = true) :
    c.isDigit ∨ c = '-' ∨ c = '+' := by
  by_contra hn
  rw [not_or, not_or] at hn
  exact h (by simp [hn.1, hn.2.1, hn.2.2])

theorem cString_cons (h : c ≠ '\x00') : cString (c :: s) = c :: cString s := by
  simp [cString, h]

theorem ne_nul_of_sign (h : c.isDigit ∨ c = '-' ∨ c = '+') : c ≠ '\x00' := by
  rintro rfl
  exact absurd h (by decide)

theorem isinteger_of_not (h : ¬ IsDecimal (cString s)) (k : Int32) :
    (isinteger bits s k).1 = false := by
  unfold isinteger
  split
  · rfl
  · rename_i c t
    split
    · rfl
    · rename_i hsign
      have hc := not_or_sign hsign
      rw [cString_cons (ne_nul_of_sign hc)] at h ⊢
      have hend : (strtol bits (c :: cString t)).2 ≠ [] := mt (isDecimal_of_strtol hc) h
      simpa using hend

/-- **`isinteger` takes a value whose C string is a decimal integer.** -/
theorem isinteger_decimal (h : IsDecimal (cString s)) (k : Int32) : isinteger bits s k =
    (true, Int32.ofInt (clampLong bits (decimalValue (cString s)))) := by
  obtain ⟨c, t, hct, hc⟩ := h.head
  cases s with
  | nil => cases hct
  | cons d s =>
    have hd : d = c := by
      by_cases hd : d = '\x00'
      · rw [hd] at hct
        cases hct
      · rw [cString_cons hd] at hct
        exact (List.cons.inj hct).1
    subst hd
    have hsign : ¬ (!d.isDigit && decide (d ≠ '-') && decide (d ≠ '+')) = true := by
      rcases hc with hc | rfl | rfl
      · simp [hc]
      · simp
      · simp
    simp only [isinteger, if_neg hsign, strtol_decimal h, List.isEmpty_nil]

theorem imageNumber_eq (bits : Nat) (url : UrlParser) : imageNumber bits url =
    if url.queryKey = "prev".toList ∧ IsDecimal (cString url.queryValue) then
      Int32.ofInt (clampLong bits (decimalValue (cString url.queryValue)))
    else 0 := by
  unfold imageNumber
  by_cases hk : url.queryKey = "prev".toList
  · by_cases hd : IsDecimal (cString url.queryValue)
    · have hne : url.queryValue.isEmpty = false := by
        rw [List.isEmpty_eq_false_iff]
        intro hnil
        rw [hnil] at hd
        exact hd.1 rfl
      rw [isinteger_decimal hd, if_pos hk, if_pos ⟨hk, hd⟩, hne]
      rfl
    · have hfalse : (isinteger bits url.queryValue 0).1 = false := isinteger_of_not hd 0
      rw [if_pos hk, if_neg fun h => hd h.2]
      simp only [hfalse, Bool.not_false, Bool.or_true, if_true]
  · rw [if_neg hk, if_neg fun h => hk h.1]

/-! ## The number -/

/-- A value that C sees only in part is no decimal integer. -/
theorem not_isDecimal_of_cut (h : cString s ≠ s) : ¬ IsDecimal s := fun hd => h hd.cString

theorem toInt_ofInt_eq_zero {n : Int} : (Int32.ofInt n).toInt = 0 ↔ (2 ^ 32 : Int) ∣ n := by
  rw [Int32.toInt_ofInt]
  exact Int.dvd_iff_bmod_eq_zero.symm

/-- **The number is the one asked for exactly where it is not misread.** -/
theorem imageNumber_toInt (hb : 32 ≤ bits) (url : UrlParser) :
    (imageNumber bits url).toInt = numberAsked url ↔ ¬ Misread bits url := by
  rw [imageNumber_eq]
  unfold numberAsked Misread
  by_cases hk : url.queryKey = "prev".toList
  swap
  · simp only [hk, false_and, if_false, not_false_iff, iff_true]
    rfl
  by_cases hd : IsDecimal (cString url.queryValue)
  swap
  · have hd' : ¬ IsDecimal url.queryValue := fun h => hd (by rw [h.cString]; exact h)
    simp only [hd, hd', false_and, and_false, if_false, not_false_iff, iff_true]
    rfl
  simp only [hk, hd, true_and, and_self, if_true]
  by_cases hcut : cString url.queryValue = url.queryValue
  · rw [hcut] at hd ⊢
    by_cases hfit : FitsInt (decimalValue url.queryValue)
    · rw [clampLong_of_int hb hfit.1 hfit.2, ofInt_toInt_of_int hfit.1 hfit.2]
      simp only [hd, hfit, and_self, if_true, ne_eq, not_true_eq_false, or_self, false_and,
        not_false_iff]
    · simp only [hfit, and_false, if_false, toInt_ofInt_eq_zero, not_false_iff, or_true,
        true_and, not_not]
  · simp only [not_isDecimal_of_cut hcut, false_and, if_false, toInt_ofInt_eq_zero, ne_eq, hcut,
      not_false_iff, true_or, true_and, not_not]

/-! ## The handler -/

theorem takeWhile_cString (s : List Char) :
    (cString s).takeWhile Char.isDigit = s.takeWhile Char.isDigit := by
  induction s with
  | nil => rfl
  | cons c s ih =>
    by_cases hd : c.isDigit
    · rw [cString_cons (ne_nul_of_sign (.inl hd)), List.takeWhile_cons_of_pos hd,
        List.takeWhile_cons_of_pos hd, ih]
    · rw [List.takeWhile_cons_of_neg hd]
      by_cases hn : c = '\x00'
      · rw [hn]
        rfl
      · rw [cString_cons hn, List.takeWhile_cons_of_neg hd]

/-- `*p == 0` behind the digits. -/
theorem rest_iff (s : List Char) :
    (s.dropWhile Char.isDigit).head?.any (· ≠ '\x00') = false ↔ ∀ c ∈ cString s, c.isDigit := by
  induction s with
  | nil => simp [cString]
  | cons c s ih =>
    by_cases hd : c.isDigit
    · rw [cString_cons (ne_nul_of_sign (.inl hd)), List.dropWhile_cons_of_pos hd, ih]
      simp [hd]
    · rw [List.dropWhile_cons_of_neg hd]
      by_cases hn : c = '\x00'
      · simp [hn, cString]
      · rw [cString_cons hn]
        simp [hn, hd]

theorem numeral_eq {s : List Char} (h : ∀ c ∈ s, c.isDigit) :
    numeral 10 s = Nat.ofDigitChars 10 s 0 := by
  have hfold : ∀ n, s.foldl (fun n c => n * 10 + digitValue c) n = Nat.ofDigitChars 10 s n := by
    induction s with
    | nil => intro n; rfl
    | cons c s ih =>
      intro n
      have hc : digitValue c = c.toNat - '0'.toNat := if_pos (h c List.mem_cons_self)
      rw [List.foldl_cons, Nat.ofDigitChars_cons, ih (fun d hd => h d (List.mem_cons_of_mem c hd)),
        hc, Nat.mul_comm]
  exact hfold 0

theorem splitSign_cString (hc : c.isDigit ∨ c = '-' ∨ c = '+') :
    splitSign (cString (c :: s)) =
      (if c = '-' then -1 else 1, cString (if c.isDigit then c :: s else s)) := by
  rw [cString_cons (ne_nul_of_sign hc)]
  rcases hc with hc | rfl | rfl
  · have hm : c ≠ '-' := by
      rintro rfl
      exact absurd hc (by decide)
    rw [splitSign_of_isDigit hc, if_neg hm, if_pos hc, cString_cons (ne_nul_of_sign (.inl hc))]
  · rfl
  · rfl

theorem isDecimal_cString_iff (hc : c.isDigit ∨ c = '-' ∨ c = '+') {digits : List Char}
    (hdigits : (if c.isDigit then c :: s else s) = digits) : IsDecimal (cString (c :: s)) ↔
      digits.takeWhile Char.isDigit ≠ [] ∧
        (digits.dropWhile Char.isDigit).head?.any (· ≠ '\x00') = false := by
  unfold IsDecimal
  rw [splitSign_cString hc, hdigits, rest_iff, ← takeWhile_cString]
  refine and_congr_left fun hall => ?_
  rw [List.takeWhile_eq_self_iff.mpr hall]

theorem decimalValue_cString (hc : c.isDigit ∨ c = '-' ∨ c = '+') {digits : List Char}
    (hdigits : (if c.isDigit then c :: s else s) = digits) : decimalValue (cString (c :: s)) =
      (if c = '-' then -1 else 1) * numeral 10 (digits.takeWhile Char.isDigit) := by
  have hall : ∀ d ∈ digits.takeWhile Char.isDigit, d.isDigit := fun d hd =>
    List.mem_takeWhile_imp hd
  unfold decimalValue
  rw [splitSign_cString hc, hdigits, takeWhile_cString, numeral_eq hall]

/-- **`isInteger` is what `isinteger` comes to** where `long` has 32 bits. -/
theorem isInteger_eq (s : List Char) : isInteger s =
    if IsDecimal (cString s) then some (clampLong 32 (decimalValue (cString s))) else none := by
  cases s with
  | nil => exact (if_neg fun h => h.1 rfl).symm
  | cons c s =>
    by_cases hsign : (!c.isDigit && decide (c ≠ '-') && decide (c ≠ '+')) = true
    · have hnot : ¬ IsDecimal (cString (c :: s)) := by
        intro h
        have hfalse : isinteger 32 (c :: s) 0 = _ := isinteger_decimal h 0
        simp only [isinteger, if_pos hsign] at hfalse
        cases hfalse
      rw [if_neg hnot, isInteger, if_pos hsign]
    · have hc := not_or_sign hsign
      rw [isInteger, if_neg hsign]
      generalize hdigits : (if c.isDigit then c :: s else s) = digits
      have hiff := isDecimal_cString_iff hc hdigits
      rw [decimalValue_cString hc hdigits]
      by_cases hnil : digits.takeWhile Char.isDigit = []
      · rw [if_pos hnil, if_neg fun h => (hiff.mp h).1 hnil]
      · rw [if_neg hnil]
        by_cases hrest : (digits.dropWhile Char.isDigit).head?.any (· ≠ '\x00') = true
        · rw [if_pos hrest, if_neg fun h => Bool.noConfusion ((hiff.mp h).2.symm.trans hrest)]
        · rw [if_neg hrest, if_pos (hiff.mpr ⟨hnil, (Bool.not_eq_true _).mp hrest⟩)]
          unfold clampLong longMax
          split
          · congr 1
            omega
          · congr 1
            omega

theorem clampLong_limits (n : Int) : -2 ^ 31 ≤ clampLong 32 n ∧ clampLong 32 n < 2 ^ 31 := by
  unfold clampLong
  omega

/-- **The handler's call**: an `img.jpg` request gets the image of its number. -/
theorem request_imageNumber (site : Site) (c : Connection)
    (h : (UrlParser.ofUri c.rx.request.line.uri).command = "img.jpg".toList) :
    Handlers.request site c =
      c.send ⟨200, site.getImage (imageNumber 32 (.ofUri c.rx.request.line.uri)).toInt⟩ := by
  have hnumber : (if (UrlParser.ofUri c.rx.request.line.uri).queryKey = "prev".toList then
        (isInteger (UrlParser.ofUri c.rx.request.line.uri).queryValue).getD 0 else 0) =
      (imageNumber 32 (.ofUri c.rx.request.line.uri)).toInt := by
    generalize UrlParser.ofUri c.rx.request.line.uri = url
    rw [imageNumber_eq, isInteger_eq]
    by_cases hk : url.queryKey = "prev".toList
    · by_cases hd : IsDecimal (cString url.queryValue)
      · have hlimits := clampLong_limits (decimalValue (cString url.queryValue))
        rw [if_pos hk, if_pos hd, if_pos ⟨hk, hd⟩, Option.getD_some,
          ofInt_toInt_of_int hlimits.1 hlimits.2]
      · rw [if_pos hk, if_neg hd, if_neg fun h => hd h.2]
        rfl
    · rw [if_neg hk, if_neg fun h => hk h.1]
      rfl
  simp only [Handlers.request, h, hnumber, if_true]

/-- **The image of the number asked for is sent exactly where the number is not misread**, whatever
the size of `long`. -/
theorem request_numberAsked {bits : Nat} (hb : 32 ≤ bits) (uri : List Char) :
    (∀ (site : Site) (c : Connection), c.rx.request.line.uri = uri →
      (UrlParser.ofUri uri).command = "img.jpg".toList →
      Handlers.request site c =
        c.send ⟨200, site.getImage (imageNumber 32 (.ofUri uri)).toInt⟩) ∧
    ((imageNumber bits (.ofUri uri)).toInt = numberAsked (.ofUri uri) ↔
      ¬ Misread bits (.ofUri uri)) := by
  refine ⟨?_, imageNumber_toInt hb _⟩
  rintro site c rfl h
  exact request_imageNumber site c h

theorem request_numberAsked_seven :
    (imageNumber 32 (.ofUri "/img.jpg?prev=7".toList)).toInt =
        numberAsked (.ofUri "/img.jpg?prev=7".toList) ↔
      ¬ Misread 32 (.ofUri "/img.jpg?prev=7".toList) :=
  (request_numberAsked (by decide) "/img.jpg?prev=7".toList).2

/-- A NUL within the value: the digits before it count. -/
theorem number_not_asked :
    ¬ ∀ (bits : Nat) (uri : List Char), 32 ≤ bits →
      (UrlParser.ofUri uri).command = "img.jpg".toList →
      (imageNumber bits (.ofUri uri)).toInt = numberAsked (.ofUri uri) := by
  intro h
  have hparts : UrlParser.ofUri "/img.jpg?prev=5\x00abc".toList =
      ⟨"img.jpg".toList, "prev".toList, "5\x00abc".toList⟩ := rfl
  have hcut : cString "5\x00abc".toList = ['5'] := rfl
  have hvalue : clampLong 32 (decimalValue ['5']) = 5 := clampLong_of_int (by decide) (by decide)
    (by decide)
  have heq := h 32 "/img.jpg?prev=5\x00abc".toList (by decide) (by rw [hparts])
  rw [imageNumber_toInt (by decide), hparts] at heq
  refine heq ⟨rfl, ?_, .inl ?_, ?_⟩
  · rw [hcut]
    decide
  · rw [hcut]
    decide
  · rw [hcut, hvalue]
    decide

end Camerasp.Http
