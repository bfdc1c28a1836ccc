import OpenSSLWasm.Bignum
import OpenSSLWasm.Lib.Calendar
import OpenSSLWasm.Lib.Scan
import OpenSSLWasm.X509.Reports

/-!
# Timestamps

The interface writes times as `YYYY-MM-DDTHH:MM:SSZ`. `parse_iso` in `src/x509_build.c` reads such a
string with `sscanf` and `timegm`, `asn1_time_to_iso` in `src/x509.c` prints one. The times of ASN.1
enter the model as a parameter.

## Main definitions

* `Tm`, `timegm`, `gmtime`, `cScanner` and `printInt`: what is used of the C library;
* `TimeLib` and `TimeLib.Documented`: the times of ASN.1;
* `parseIso` and `asn1TimeToIso`: the conversions;
* `Timestamp` and `Timestamp.iso`: the seconds of the years 0000 to 9999, and how they are written;
* `RoundTrips`: a second is read and printed as it was written;
* `OnlyTimestamps`: a string is refused unless it is written like this.

## Main results

* `roundTrips_iff`: every second goes through but the last one before 1970;
* `onlyTimestamps_iff`: the other strings that are not refused.
-/

namespace OpenSSLWasm.X509

open Calendar Bignum

/-! ## The C library -/

/-- `struct tm`, as far as it is used: years since 1900, and months from 0. -/
structure Tm where
  year : ℤ
  mon : ℤ
  mday : ℤ
  hour : ℤ
  min : ℤ
  sec : ℤ
  deriving DecidableEq, Repr

/-- The value that an `int` holds in which an integer was stored. -/
def toInt32 (z : ℤ) : ℤ := (BitVec.ofInt 32 z).toInt

theorem toInt32_of_lt {z : ℤ} (h : -2 ^ 31 ≤ z) (h' : z < 2 ^ 31) : toInt32 z = z := by
  rw [toInt32, BitVec.toInt_ofInt, Int.bmod_def]
  omega

/-- The `%d` of `sscanf`: blanks as for `isspace`, and an `int` that holds the number, which is read
as one of 64 bits. -/
def cScanner : Scanner Byte where
  toNumerals := decNumerals
  plus := 43
  isSpace b := b = 32 ∨ (9 ≤ b.toNat ∧ b.toNat ≤ 13)
  -- a number that is too large even for 64 bits is read as the largest, whatever its sign
  store neg n := if 2 ^ 64 ≤ n then toInt32 (2 ^ 64 - 1) else toInt32 (if neg then -n else n)
  plus_ne_minus := by decide
  digit_plus := by decide
  isSpace_plus := by decide
  isSpace_minus := by decide
  digit_of_isSpace b hb := by
    have hb : b.toNat ≤ 32 := by
      rcases of_decide_eq_true hb with rfl | hb
      · decide
      · omega
    show decDigit b = none
    rw [decDigit, if_neg (by omega)]

/-- The start of 1970, from that of the year 0. -/
def epoch : ℤ := 719528 * 86400

/-- The second that fields denote, with what is too much or too little in one of them carried over
to the next: from the start of the year 0. -/
def tmSeconds (tm : Tm) : ℤ :=
  let year := tm.year + 1900 + tm.mon / 12
  (daysBeforeYear year + dayOfYear year (tm.mon % 12).toNat tm.mday) * 86400 +
    tm.hour * 3600 + tm.min * 60 + tm.sec

/-- `gmtime`, on any number of seconds since 1970. -/
def gmtime (t : ℤ) : Tm :=
  let c := DateTime.ofSeconds (t + epoch)
  ⟨c.year - 1900, c.month, c.day, c.hour, c.minute, c.second⟩

/-- `timegm`, which fails if the year is no `int`. -/
def timegm (tm : Tm) : ℤ :=
  let t := tmSeconds tm - epoch
  if -2 ^ 31 ≤ (gmtime t).year ∧ (gmtime t).year < 2 ^ 31 then t else -1

/-- The decimal digits of a number. -/
def decimal (n : ℕ) : List Byte :=
  if n = 0 then [decSymbol 0] else (Nat.digits 10 n).reverse.map decSymbol

/-- `%0wd` of `snprintf`. -/
def printInt (w : ℕ) (z : ℤ) : List Byte :=
  let sign : List Byte := if z < 0 then [45] else []
  sign ++ (List.replicate (w - sign.length - (decimal z.natAbs).length) 48 ++ decimal z.natAbs)

/-! ## The conversions -/

/-- Times of ASN.1, over a type `τ` of them. -/
structure TimeLib (τ : Type) where
  /-- `ASN1_TIME_set`, into a new time. -/
  asn1TimeSet : ℤ → Option τ
  asn1TimeToTm : τ → Option Tm

/-- What the interface relies on: for the years 0000 to 9999 the conversions are those of the
calendar. -/
structure TimeLib.Documented {τ : Type} (T : TimeLib τ) : Prop where
  toTm_set : ∀ t, 0 ≤ (gmtime t).year + 1900 → (gmtime t).year + 1900 ≤ 9999 →
    ∃ a, T.asn1TimeSet t = some a ∧ T.asn1TimeToTm a = some (gmtime t)

/-- `%d-%d-%dT%d:%d:%d`, without the `Z` that ends the format of `parse_iso`. -/
def isoFields : List (Scanner.Directive Byte) :=
  [.int, .lit 45, .int, .lit 45, .int, .lit 84, .int, .lit 58, .int, .lit 58, .int]

/-- What `parse_iso` looks at: 31 bytes, up to a NUL. -/
def isoBuffer (s : List Byte) : List Byte := cString (s.take 31 ++ [0])

/-- The fields that are handed to `timegm`. -/
def isoTm (y mo d h mi se : ℤ) : Tm := ⟨toInt32 (y - 1900), toInt32 (mo - 1), d, h, mi, se⟩

section

variable {τ : Type} (T : TimeLib τ)

def parseIso (s : List Byte) : Option τ :=
  match cScanner.scan (isoFields ++ [.lit 90]) (isoBuffer s) with
  | [y, mo, d, h, mi, se] =>
    let t := timegm (isoTm y mo d h mi se)
    -- -1 stands for an error
    if t = -1 then none else T.asn1TimeSet t
  | _ => none

/-- `snprintf` into a buffer of 32 bytes. -/
def printIso (tm : Tm) : List Byte :=
  (printInt 4 (tm.year + 1900) ++ 45 :: (printInt 2 (tm.mon + 1) ++ 45 :: (printInt 2 tm.mday ++
    84 :: (printInt 2 tm.hour ++ 58 :: (printInt 2 tm.min ++ 58 :: (printInt 2 tm.sec ++
      [90])))))).take 31

/-- `asn1_time_to_iso`, for a time that may be missing. -/
def asn1TimeToIso (t : Option τ) : List Byte :=
  match t.bind T.asn1TimeToTm with
  | some tm => printIso tm
  | none => []

/-- The steps of a builder, with those for the times as the source has them. -/
def CertLib.withTimes {Name ν κ : Type} (L : CertLib Name ν τ κ) : CertLib Name ν τ κ :=
  { L with parseIso := X509.parseIso T }

end

/-! ## Timestamps -/

/-- The last `w` decimal digits of a number, with leading zeros. -/
def fixedDigits : ℕ → ℕ → List Byte
  | 0, _ => []
  | w + 1, n => fixedDigits w (n / 10) ++ [decSymbol (n % 10)]

/-- A second of the years 0000 to 9999. -/
structure Timestamp extends DateTime where
  year_nonneg : 0 ≤ year
  year_le : year ≤ 9999
  deriving DecidableEq

/-- The second, written as `YYYY-MM-DDTHH:MM:SSZ`. -/
def Timestamp.iso (c : Timestamp) : List Byte :=
  fixedDigits 4 c.year.toNat ++ 45 :: (fixedDigits 2 (c.month + 1) ++
    45 :: (fixedDigits 2 c.day.toNat ++ 84 :: (fixedDigits 2 c.hour.toNat ++
      58 :: (fixedDigits 2 c.minute.toNat ++ 58 :: (fixedDigits 2 c.second.toNat ++ [90])))))

/-! ## Digits -/

theorem isDigit_decSymbol (n : ℕ) : decNumerals.isDigit (decSymbol (n % 10)) = true := by
  show (decDigit (decSymbol (n % 10))).isSome = true
  rw [decDigit_decSymbol _ (Nat.mod_lt n (by decide))]
  rfl

@[simp] theorem length_fixedDigits (w n : ℕ) : (fixedDigits w n).length = w := by
  induction w generalizing n with
  | zero => rfl
  | succ w ih => rw [fixedDigits, List.length_append, ih, List.length_singleton]

theorem isDigit_of_mem_fixedDigits {w n : ℕ} {b : Byte} (h : b ∈ fixedDigits w n) :
    decNumerals.isDigit b = true := by
  induction w generalizing n with
  | zero => cases h
  | succ w ih =>
    rw [fixedDigits, List.mem_append, List.mem_singleton] at h
    rcases h with h | rfl
    · exact ih h
    · exact isDigit_decSymbol n

/-- The digits denote the number, if it has no more. -/
theorem value_fixedDigits {w n : ℕ} (h : n < 10 ^ w) :
    decNumerals.value (fixedDigits w n) = n := by
  induction w generalizing n with
  | zero =>
    have : n = 0 := by omega
    rw [this]
    rfl
  | succ w ih =>
    have hlast : decNumerals.value [decSymbol (n % 10)] = n % 10 := by
      show 0 * 10 + (decDigit (decSymbol (n % 10))).getD 0 = n % 10
      rw [decDigit_decSymbol _ (Nat.mod_lt n (by decide))]
      simp
    rw [Nat.pow_succ] at h
    rw [fixedDigits, Numerals.value_append, ih (by omega), hlast, List.length_singleton]
    show n / 10 * 10 ^ 1 + n % 10 = n
    omega

/-- The last digit of a number, after the others. -/
theorem decimal_eq (n : ℕ) :
    decimal n = (if n < 10 then [] else decimal (n / 10)) ++ [decSymbol (n % 10)] := by
  rcases Nat.eq_zero_or_pos n with rfl | hpos
  · rfl
  · have hdigits : Nat.digits 10 n = n % 10 :: Nat.digits 10 (n / 10) :=
      Nat.digits_def' (by decide) hpos
    rw [decimal, if_neg (by omega), hdigits, List.reverse_cons, List.map_append]
    -- a number of one digit has nothing before it, not even a zero
    split
    · have hzero : n / 10 = 0 := by omega
      rw [hzero, Nat.digits_zero]
      rfl
    · rw [decimal, if_neg (by omega)]
      rfl

theorem fixedDigits_zero (w : ℕ) : fixedDigits w 0 = List.replicate w 48 := by
  induction w with
  | zero => rfl
  | succ w ih => rw [fixedDigits, Nat.zero_div, ih, List.replicate_succ']; rfl

/-- Padded with zeros, a number has the digits it should. -/
theorem pad_decimal {w n : ℕ} (hw : 0 < w) (h : n < 10 ^ w) :
    List.replicate (w - (decimal n).length) 48 ++ decimal n = fixedDigits w n := by
  induction w generalizing n with
  | zero => omega
  | succ w ih =>
    rw [decimal_eq, fixedDigits]
    split
    · -- a single digit
      have hzero : n / 10 = 0 := by omega
      rw [hzero, fixedDigits_zero]
      rfl
    · have hlt : n / 10 < 10 ^ w := by
        rw [Nat.pow_succ] at h
        omega
      have hw : 0 < w := by
        rcases Nat.eq_zero_or_pos w with rfl | hw
        · omega
        · exact hw
      rw [← ih hw hlt, List.length_append, List.length_singleton, Nat.add_sub_add_right,
        List.append_assoc]

/-- `snprintf` prints numbers that have no more digits with exactly as many. -/
theorem printInt_eq {w : ℕ} {z : ℤ} (hw : 0 < w) (h0 : 0 ≤ z) (h : z.toNat < 10 ^ w) :
    printInt w z = fixedDigits w z.toNat := by
  have habs : z.natAbs = z.toNat := by omega
  simp only [printInt, if_neg (Int.not_lt.mpr h0), List.nil_append, List.length_nil, Nat.sub_zero,
    habs]
  exact pad_decimal hw h

/-- `sscanf` reads such digits back, if something else follows. -/
theorem reads_fixedDigits {w n : ℕ} {c : Byte} (rest : List Byte) (hw : 0 < w) (hw' : w ≤ 9)
    (h : n < 10 ^ w) (hc : decNumerals.isDigit c = false) :
    cScanner.Reads (fixedDigits w n ++ c :: rest) n (c :: rest) := by
  have hn : n < 10 ^ 9 := Nat.lt_of_lt_of_le h (Nat.pow_le_pow_right (by decide) hw')
  -- nine digits are below `INT_MAX`, so that `%d` stores the number itself
  have hstore : cScanner.store false n = n := by
    show (if 2 ^ 64 ≤ n then toInt32 (2 ^ 64 - 1) else toInt32 (if false then -n else n)) = n
    rw [if_neg (by omega), if_neg Bool.false_ne_true, toInt32_of_lt (by omega) (by omega)]
  refine ⟨[], [], fixedDigits w n, false, rfl, ?_, ⟨?_, fun b hb => ?_⟩, ?_, ?_, ?_⟩
  · intro b hb
    cases hb
  · rw [← List.length_pos_iff, length_fixedDigits]
    exact hw
  · exact isDigit_of_mem_fixedDigits hb
  · intro b hb
    obtain rfl := Option.some.inj hb
    exact hc
  · exact Or.inl ⟨rfl, Or.inl rfl⟩
  · have hvalue : cScanner.value (fixedDigits w n) = n := value_fixedDigits h
    rw [hvalue, hstore]

/-! ## Reading and printing timestamps -/

namespace Timestamp

variable (c : Timestamp)

theorem day_lt : c.day < 32 := by
  have hle := c.day_le
  have hlength : ∀ y m, monthLength y m ≤ 31 := by
    intro y m
    unfold monthLength
    split
    · split <;> omega
    all_goals omega
  exact Int.lt_of_le_of_lt hle (Int.lt_add_one_of_le (hlength c.year c.month))

/-- All fields have as many digits as they are written with. -/
structure InDigits : Prop where
  year : c.year.toNat < 10 ^ 4
  month : c.month + 1 < 10 ^ 2
  day : c.day.toNat < 10 ^ 2
  hour : c.hour.toNat < 10 ^ 2
  minute : c.minute.toNat < 10 ^ 2
  second : c.second.toNat < 10 ^ 2

theorem inDigits : c.InDigits where
  year := by have := c.year_le; omega
  month := by have := c.month_lt; omega
  day := by have := c.day_lt; omega
  hour := by have := c.hour_lt; omega
  minute := by have := c.minute_lt; omega
  second := by have := c.second_lt; omega

/-- The fields, as `sscanf` stores them. -/
def fields : List ℤ := [c.year, c.month + 1, c.day, c.hour, c.minute, c.second]

/-- A timestamp matches the format. -/
theorem scans_iso : cScanner.Scans isoFields c.iso c.fields := by
  have h := c.inDigits
  have hyear : (c.year.toNat : ℤ) = c.year := Int.toNat_of_nonneg c.year_nonneg
  have hday : (c.day.toNat : ℤ) = c.day := Int.toNat_of_nonneg (by have := c.one_le_day; omega)
  have hhour : (c.hour.toNat : ℤ) = c.hour := Int.toNat_of_nonneg c.hour_nonneg
  have hminute : (c.minute.toNat : ℤ) = c.minute := Int.toNat_of_nonneg c.minute_nonneg
  have hsecond : (c.second.toNat : ℤ) = c.second := Int.toNat_of_nonneg c.second_nonneg
  rw [fields, ← hyear, ← hday, ← hhour, ← hminute, ← hsecond, iso, isoFields]
  -- a separator ends the digits of each field
  refine .int (reads_fixedDigits _ (by decide) (by decide) h.year (by decide)) (.lit ?_)
  refine .int (reads_fixedDigits _ (by decide) (by decide) h.month (by decide)) (.lit ?_)
  refine .int (reads_fixedDigits _ (by decide) (by decide) h.day (by decide)) (.lit ?_)
  refine .int (reads_fixedDigits _ (by decide) (by decide) h.hour (by decide)) (.lit ?_)
  refine .int (reads_fixedDigits _ (by decide) (by decide) h.minute (by decide)) (.lit ?_)
  exact .int (reads_fixedDigits _ (by decide) (by decide) h.second (by decide)) (.nil _)

theorem length_iso : c.iso.length = 20 := by
  simp [iso]

/-- It fits into the buffer, and has no NUL. -/
theorem isoBuffer_iso : isoBuffer c.iso = c.iso := by
  rw [isoBuffer, cString_append_nul, List.take_of_length_le (by rw [length_iso]; decide)]
  refine cString_of_not_mem fun h => ?_
  have hdigits : ∀ w n, 0#8 ∉ fixedDigits w n := by
    intro w n h
    exact absurd (isDigit_of_mem_fixedDigits h) (by decide)
  simp [iso, hdigits] at h

/-- The integers that are read from it are its fields. -/
theorem scan_iso : cScanner.scan (isoFields ++ [.lit 90]) (isoBuffer c.iso) = c.fields := by
  rw [isoBuffer_iso, Scanner.scan_append_lit]
  exact c.scans_iso.scan_eq.1

/-- The fields of `gmtime` are those of the second. -/
theorem gmtime_toSeconds :
    gmtime (c.toSeconds - epoch) = ⟨c.year - 1900, c.month, c.day, c.hour, c.minute, c.second⟩ := by
  rw [gmtime, Int.sub_add_cancel, DateTime.ofSeconds_toSeconds]

/-- `timegm` gives the second that is written. -/
theorem timegm_fields :
    timegm (isoTm c.year (c.month + 1) c.day c.hour c.minute c.second) =
      c.toSeconds - epoch := by
  have hyear := c.year_nonneg
  have hyear' := c.year_le
  have hmonth := c.month_lt
  have htm : isoTm c.year (c.month + 1) c.day c.hour c.minute c.second =
      ⟨c.year - 1900, c.month, c.day, c.hour, c.minute, c.second⟩ := by
    rw [isoTm, Int.add_sub_cancel, toInt32_of_lt (by omega) (by omega),
      toInt32_of_lt (by omega) (by omega)]
  have hseconds : tmSeconds ⟨c.year - 1900, c.month, c.day, c.hour, c.minute, c.second⟩ =
      c.toSeconds := by
    -- no month is carried over
    have hcarry : (c.month : ℤ) / 12 = 0 := by omega
    have hmod : ((c.month : ℤ) % 12).toNat = c.month := by omega
    simp only [tmSeconds, hcarry, hmod, Int.sub_add_cancel, Int.add_zero]
    rfl
  simp only [timegm, htm, hseconds, gmtime_toSeconds]
  rw [if_pos (by omega)]

/-- What is printed for a second is how it is written. -/
theorem printIso_gmtime : printIso (gmtime (c.toSeconds - epoch)) = c.iso := by
  have h := c.inDigits
  have hmonth : ((c.month : ℤ) + 1).toNat = c.month + 1 := by omega
  rw [gmtime_toSeconds, printIso]
  dsimp only
  rw [Int.sub_add_cancel, printInt_eq (by decide) c.year_nonneg h.year,
    printInt_eq (by decide) (by omega) (by rw [hmonth]; exact h.month), hmonth,
    printInt_eq (by decide) (by have := c.one_le_day; omega) h.day,
    printInt_eq (by decide) c.hour_nonneg h.hour,
    printInt_eq (by decide) c.minute_nonneg h.minute,
    printInt_eq (by decide) c.second_nonneg h.second]
  exact List.take_of_length_le (by rw [← iso, length_iso]; decide)

end Timestamp

/-! ## Round trips -/

/-- The last second before 1970. -/
def lastOf1969 : Timestamp where
  year := 1969
  month := 11
  day := 31
  hour := 23
  minute := 59
  second := 59
  month_lt := by decide
  one_le_day := by decide
  day_le := by decide
  hour_nonneg := by decide
  hour_lt := by decide
  minute_nonneg := by decide
  minute_lt := by decide
  second_nonneg := by decide
  second_lt := by decide
  year_nonneg := by decide
  year_le := by decide

example : lastOf1969.iso = ascii "1969-12-31T23:59:59Z" := by decide

/-- It is the one that `time_t` writes as -1. -/
theorem toSeconds_eq_iff (c : Timestamp) : c.toSeconds - epoch = -1 ↔ c = lastOf1969 := by
  have hlast : lastOf1969.toSeconds - epoch = -1 := by decide
  constructor
  · intro h
    have hdate : c.toDateTime = lastOf1969.toDateTime :=
      DateTime.toSeconds_injective (by omega)
    cases c
    cases hdate
    rfl
  · rintro rfl
    exact hlast

/-- `parse_iso` sets the second, unless it is taken for an error. -/
theorem parseIso_iso {τ : Type} (T : TimeLib τ) (c : Timestamp) :
    parseIso T c.iso = if c = lastOf1969 then none else T.asn1TimeSet (c.toSeconds - epoch) := by
  rw [parseIso, c.scan_iso, Timestamp.fields]
  dsimp only
  rw [c.timegm_fields]
  by_cases h : c = lastOf1969
  · rw [if_pos h, if_pos ((toSeconds_eq_iff c).mpr h)]
  · rw [if_neg h, if_neg fun h' => h ((toSeconds_eq_iff c).mp h')]

/-- A second that is written goes through both conversions unchanged. -/
def RoundTrips (c : Timestamp) : Prop :=
  ∀ (τ : Type) (T : TimeLib τ), T.Documented →
    ∃ a, parseIso T c.iso = some a ∧ asn1TimeToIso T (some a) = c.iso

/-- Times of ASN.1 that are numbers of seconds. -/
def referenceTime : TimeLib ℤ where
  asn1TimeSet t := some t
  asn1TimeToTm t := some (gmtime t)

theorem referenceTime_documented : referenceTime.Documented where
  toTm_set t _ _ := ⟨t, rfl, rfl⟩

/-- Every second goes through, except the last one before 1970. -/
theorem roundTrips_iff (c : Timestamp) : RoundTrips c ↔ c ≠ lastOf1969 := by
  constructor
  · rintro h rfl
    -- the count of that second is the error value
    obtain ⟨a, ha, -⟩ := h ℤ referenceTime referenceTime_documented
    rw [parseIso_iso, if_pos rfl] at ha
    cases ha
  · intro hc τ T hT
    have hyear := c.year_nonneg
    have hyear' := c.year_le
    -- the year is one that an ASN.1 time can have
    obtain ⟨a, hset, htm⟩ := hT.toTm_set (c.toSeconds - epoch)
      (by rw [c.gmtime_toSeconds]; dsimp only; omega)
      (by rw [c.gmtime_toSeconds]; dsimp only; omega)
    refine ⟨a, ?_, ?_⟩
    · rw [parseIso_iso, if_neg hc, hset]
    · rw [asn1TimeToIso, Option.bind_some, htm]
      exact c.printIso_gmtime

theorem not_roundTrips_lastOf1969 : ¬∀ c, RoundTrips c := by
  intro h
  obtain ⟨a, ha, -⟩ := h lastOf1969 ℤ referenceTime referenceTime_documented
  rw [parseIso_iso, if_pos rfl] at ha
  cases ha

/-! ## Other strings -/

/-- Only a timestamp gives a time, and a certificate. -/
def OnlyTimestamps (s : List Byte) : Prop :=
  ∀ (Name ν τ κ : Type) (T : TimeLib τ) (L : CertLib Name ν τ κ), T.Documented →
    (∀ a, parseIso T s = some a → ∃ c : Timestamp, s = c.iso) ∧
      ∀ (input : BuilderInput Name κ) (signer : κ) (cert : Certificate ν τ κ),
        input.notBefore = s ∨ input.notAfter = s →
          buildAndSign (L.withTimes T) input signer = .ok cert → ∃ c : Timestamp, s = c.iso

/-- Steps that all succeed, apart from those for the times. -/
def timeCertLib : CertLib Unit Unit ℤ Unit :=
  { fineCertLib with
    parseIso := fun _ => none
    sign := fun _ _ _ => .ok ()
    signReq := fun _ _ _ => .ok () }

/-- What the code reads: the 31 bytes that are looked at start with six integers, separated as in a
timestamp, that do not denote the second before 1970, nor a year that is no `int`. -/
def ReadAsTime (s : List Byte) : Prop :=
  ∃ y mo d h mi se, cScanner.Scans isoFields (isoBuffer s) [y, mo, d, h, mi, se] ∧
    timegm (isoTm y mo d h mi se) ≠ -1

theorem readAsTime_of_parseIso {τ : Type} {T : TimeLib τ} {s : List Byte} {a : τ}
    (h : parseIso T s = some a) : ReadAsTime s := by
  rw [parseIso, Scanner.scan_append_lit] at h
  split at h
  · rename_i y mo d hh mi se hscan
    dsimp only at h
    split_ifs at h with ht
    exact ⟨y, mo, d, hh, mi, se, (Scanner.scan_iff (by decide)).mp ⟨hscan, rfl⟩, ht⟩
  · cases h

/-- Then a time is set. -/
theorem ReadAsTime.parseIso_reference {s : List Byte} (h : ReadAsTime s) :
    ∃ a, parseIso referenceTime s = some a := by
  obtain ⟨y, mo, d, hh, mi, se, hscans, ht⟩ := h
  refine ⟨timegm (isoTm y mo d hh mi se), ?_⟩
  rw [parseIso, Scanner.scan_append_lit, hscans.scan_eq.1]
  exact if_neg ht

/-- The strings that are no timestamps and refused nevertheless are those that the code does not
read as a time. -/
theorem onlyTimestamps_iff (s : List Byte) :
    OnlyTimestamps s ↔ (∃ c : Timestamp, s = c.iso) ∨ ¬ReadAsTime s := by
  constructor
  · intro h
    by_cases hread : ReadAsTime s
    · -- what is read as a time has to be a timestamp
      obtain ⟨a, ha⟩ := hread.parseIso_reference
      obtain ⟨honly, -⟩ := h Unit Unit ℤ Unit referenceTime timeCertLib referenceTime_documented
      exact Or.inl (honly a ha)
    · exact Or.inr hread
  · intro h Name ν τ κ T L hT
    have hparse : ∀ a, parseIso T s = some a → ∃ c : Timestamp, s = c.iso :=
      fun a ha => h.resolve_right fun hnot => hnot (readAsTime_of_parseIso ha)
    refine ⟨hparse, fun input signer cert hinput hbuild => ?_⟩
    -- both times of a certificate come from the same reader
    have hbuilt := fields_of_buildAndSign hbuild
    rcases hinput with rfl | rfl
    · exact hparse _ hbuilt.notBefore
    · exact hparse _ hbuilt.notAfter

/-- With an offset of two hours, the time is read as if it were UTC. -/
theorem not_onlyTimestamps_offset : ¬OnlyTimestamps (ascii "2030-01-01T00:00:00+02:00") := by
  intro h
  have hparse : parseIso referenceTime (ascii "2030-01-01T00:00:00+02:00") = some 1893456000 := by
    decide
  obtain ⟨honly, -⟩ := h Unit Unit ℤ Unit referenceTime timeCertLib referenceTime_documented
  obtain ⟨c, hc⟩ := honly _ hparse
  have hlen := congrArg List.length hc
  rw [c.length_iso] at hlen
  exact absurd hlen (by decide)

end OpenSSLWasm.X509
