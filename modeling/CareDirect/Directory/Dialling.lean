import CareDirect.Cells.Table
import CareDirect.Lib.IcuPattern
import CareDirect.Lib.Segments

/-!
# Dialling a trainer

A tap on a trainer strips the phone text and opens a `TEL` address, which must be ASCII. The loop of `TrainingVC.swift`
goes over characters in the sense of Swift, and each of them may be several scalars. It tests whether one scalar is a
decimal digit of any script, and keeps the whole character. So no digit is lost, and what is kept is the ASCII digits of
the text exactly when every character with a decimal digit is made of ASCII digits alone (`dials_digits_iff`); a scalar
outside ASCII that is kept stops the app.
-/

namespace CareDirect.Directory

open Segments

/-- What Swift and Foundation know of texts: the characters of a string, the Unicode table of decimal digits, and which
strings are addresses. -/
structure Foundation where
  /-- The extended grapheme clusters of a string, each as a string. -/
  characters : String → List String
  characters_join : ∀ text, String.join (characters text) = text
  decimalDigits : Icu.Digits
  /-- `URL(string:)` gives an address. -/
  isURL : String → Bool
  isURL_ascii : ∀ text, isURL text = true → ∀ c ∈ text.toList, c.toNat < 128
  isURL_tel : ∀ text, (∀ c ∈ text.toList, c.isDigit = true) → isURL ("TEL://" ++ text) = true

namespace TrainingVC

/-- `charString.rangeOfCharacter(from: CharacterSet.decimalDigits) != nil` -/
def hasDecimalDigit (foundation : Foundation) (charString : String) : Bool :=
  charString.toList.any foundation.decimalDigits.decimal

/-- The loop over the phone text. -/
def strippedNumber (foundation : Foundation) (siteString : String) : String :=
  (foundation.characters siteString).foldl
    (fun strippedNumber char => if hasDecimalDigit foundation char then strippedNumber ++ char else strippedNumber) ""

/-- `tableView(_:didSelectRowAt:)`, with the address that is opened; `none` is a trap. -/
def didSelectRowAt (foundation : Foundation) (vc : TrainingVC) (row : ℕ) : Option String := do
  let trainer ← vc.trainers[row]?
  let resourceCell := Cells.TrainingVC.labels trainer
  let siteString ← resourceCell.lblPhone
  let url := "TEL://" ++ strippedNumber foundation siteString
  if foundation.isURL url then some url else none

/-! ## The loop -/

variable {foundation : Foundation} {vc : TrainingVC} {row : ℕ} {trainer : TrainerModel} {text char : String}

theorem toList_foldl (foundation : Foundation) (characters : List String) (stripped : String) :
    (characters.foldl (fun strippedNumber char =>
      if hasDecimalDigit foundation char then strippedNumber ++ char else strippedNumber) stripped).toList =
      stripped.toList ++ keep foundation.decimalDigits.decimal (characters.map String.toList) := by
  induction characters generalizing stripped with
  | nil => exact (List.append_nil _).symm
  | cons char characters ih =>
    rw [List.foldl_cons, ih, List.map_cons, keep_cons, ← List.append_assoc]
    congr 1
    unfold hasDecimalDigit
    split
    · exact String.toList_append
    · exact (List.append_nil _).symm

/-- The scalars of the stripped number are those of the characters with a decimal digit. -/
theorem toList_strippedNumber : (strippedNumber foundation text).toList =
    keep foundation.decimalDigits.decimal ((foundation.characters text).map String.toList) :=
  toList_foldl foundation (foundation.characters text) ""

theorem flatten_characters : ((foundation.characters text).map String.toList).flatten = text.toList := by
  have hjoin := congrArg String.toList (foundation.characters_join text)
  rw [String.toList_join, List.flatMap_def] at hjoin
  exact hjoin

/-- No ASCII digit is dropped, whatever the text. -/
theorem digits_kept : (text.toList.filter Char.isDigit).Sublist (strippedNumber foundation text).toList := by
  rw [toList_strippedNumber, ← @flatten_characters foundation text]
  exact filter_sublist_keep (fun _ => foundation.decimalDigits.decimal_of_isDigit) _

/-- The stripped number is the ASCII digits of the text. -/
theorem stripped_iff : (strippedNumber foundation text).toList = text.toList.filter Char.isDigit ↔
    ∀ char ∈ foundation.characters text, hasDecimalDigit foundation char = true →
      ∀ c ∈ char.toList, c.isDigit = true := by
  have hkeep := @keep_eq_filter_iff _ Char.isDigit foundation.decimalDigits.decimal
    ((foundation.characters text).map String.toList) fun _ => foundation.decimalDigits.decimal_of_isDigit
  rw [flatten_characters, ← toList_strippedNumber, List.forall_mem_map] at hkeep
  exact hkeep

/-! ## The tap -/

theorem didSelectRowAt_eq (h : vc.trainers[row]? = some trainer) (htext : trainer.phone = some text) :
    didSelectRowAt foundation vc row =
      if foundation.isURL ("TEL://" ++ strippedNumber foundation text) then
        some ("TEL://" ++ strippedNumber foundation text)
      else none := by
  simp only [didSelectRowAt, h, Cells.TrainingVC.labels, htext, Option.bind_eq_bind, Option.bind_some]

/-- A character with a decimal digit and a scalar outside ASCII stops the app. -/
theorem didSelectRowAt_trap (h : vc.trainers[row]? = some trainer) (htext : trainer.phone = some text)
    (hchar : char ∈ foundation.characters text) (hdigit : hasDecimalDigit foundation char = true) {c : Char}
    (hc : c ∈ char.toList) (hascii : 128 ≤ c.toNat) : didSelectRowAt foundation vc row = none := by
  have hkept : c ∈ (strippedNumber foundation text).toList := by
    rw [toList_strippedNumber]
    exact List.mem_flatten.2 ⟨char.toList, List.mem_filter.2 ⟨List.mem_map_of_mem hchar, hdigit⟩, hc⟩
  rw [didSelectRowAt_eq h htext, if_neg]
  intro hurl
  have hlt := foundation.isURL_ascii _ hurl c (by rw [String.toList_append]; exact List.mem_append_right _ hkept)
  omega

/-- The tap dials the ASCII digits of the text, and nothing else. -/
structure DialsDigits (foundation : Foundation) (vc : TrainingVC) (row : ℕ) (text : String) : Prop where
  stripped : (strippedNumber foundation text).toList = text.toList.filter Char.isDigit
  ascii : ∀ c ∈ ("TEL://" ++ strippedNumber foundation text).toList, c.toNat < 128
  opens : didSelectRowAt foundation vc row = some ("TEL://" ++ strippedNumber foundation text)

theorem dialsDigits_of_stripped (h : vc.trainers[row]? = some trainer) (htext : trainer.phone = some text)
    (hstripped : (strippedNumber foundation text).toList = text.toList.filter Char.isDigit) :
    DialsDigits foundation vc row text := by
  have hdigits : ∀ c ∈ (strippedNumber foundation text).toList, c.isDigit = true := by
    intro c hc
    rw [hstripped] at hc
    exact (List.mem_filter.1 hc).2
  have hurl := foundation.isURL_tel _ hdigits
  refine ⟨hstripped, foundation.isURL_ascii _ hurl, ?_⟩
  rw [didSelectRowAt_eq h htext, if_pos hurl]

end TrainingVC

open TrainingVC

/-- **Dialling.** For any phone text: a tap dials exactly its ASCII digits when, and only when, each character of the
text with a decimal digit is made of ASCII digits. -/
theorem dials_digits_iff (foundation : Foundation) {vc : TrainingVC} {row : ℕ} {trainer : TrainerModel} {text : String}
    (h : vc.trainers[row]? = some trainer) (htext : trainer.phone = some text) :
    DialsDigits foundation vc row text ↔ ∀ char ∈ foundation.characters text,
      hasDecimalDigit foundation char = true → ∀ c ∈ char.toList, c.isDigit = true := by
  rw [← stripped_iff]
  exact ⟨DialsDigits.stripped, dialsDigits_of_stripped h htext⟩

/-- Texts of ASCII characters and Arabic-Indic digits, each of which is a character by itself. -/
def sampleFoundation : Foundation where
  characters text := text.toList.map String.singleton
  characters_join text := by
    rw [← String.toList_inj, String.toList_join, List.flatMap_map]
    simp
  decimalDigits :=
    { decimal := fun c => c.isDigit || decide (0x660 ≤ c.toNat ∧ c.toNat ≤ 0x669)
      decimal_ascii := fun c hc => by
        have hno : ¬ (0x660 ≤ c.toNat ∧ c.toNat ≤ 0x669) := by omega
        rw [decide_eq_false hno, Bool.or_false]
      decimal_terminator := List.all_iff_forall_prop.1 (by decide) }
  isURL text := text.toList.all fun c => decide (c.toNat < 128 ∧ c ≠ ' ')
  isURL_ascii text h c hc := (of_decide_eq_true (List.all_eq_true.1 h c hc)).1
  isURL_tel text h := by
    rw [List.all_eq_true, String.toList_append]
    intro c hc
    refine decide_eq_true ?_
    rcases List.mem_append.1 hc with htel | hdigit
    · have hall : ("TEL://".toList.all fun c => decide (c.toNat < 128 ∧ c ≠ ' ')) = true := by decide
      exact List.all_iff_forall_prop.1 hall c htel
    · refine ⟨Icu.isDigit_ascii (h c hdigit), ?_⟩
      rintro rfl
      exact absurd (h ' ' hdigit) (by decide)

/-- A trainer with this phone text. -/
def trainerWith (phone : String) : TrainerModel := .new (some "Ann") none none (some phone) none none

theorem dials_digits_sample :
    DialsDigits sampleFoundation { trainers := [trainerWith "206-383-2319"] } 0 "206-383-2319" := by
  refine (dials_digits_iff sampleFoundation rfl rfl).2 fun char hchar hdigit => ?_
  have hall : (sampleFoundation.characters "206-383-2319").all (fun char =>
      !hasDecimalDigit sampleFoundation char || char.toList.all Char.isDigit) = true := by decide
  have hdigits := List.all_eq_true.1 hall char hchar
  rw [hdigit] at hdigits
  exact List.all_eq_true.1 hdigits

/-- Arabic-Indic digits are kept, and the app stops. -/
theorem dials_digits_fails :
    (strippedNumber sampleFoundation "\u0662\u0660\u0666").toList = ['\u0662', '\u0660', '\u0666'] ∧
    ("\u0662\u0660\u0666".toList.filter Char.isDigit) = [] ∧
    didSelectRowAt sampleFoundation { trainers := [trainerWith "\u0662\u0660\u0666"] } 0 = none ∧
    ¬ DialsDigits sampleFoundation { trainers := [trainerWith "\u0662\u0660\u0666"] } 0 "\u0662\u0660\u0666" := by
  refine ⟨by decide, by decide, by decide, fun hdials => ?_⟩
  exact absurd hdials.stripped (by decide)

end CareDirect.Directory
