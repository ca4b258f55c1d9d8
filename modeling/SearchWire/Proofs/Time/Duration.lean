import SearchWire.Proofs.Json.Number
import SearchWire.Request.Timeout

/-!
# Time values of durations

A duration is written as a whole number of one of three units. No unit leaves anything over, since
the finest one is a microsecond; the unit that is written is the coarsest one that divides the
duration. So the text can be read back, also for a negative duration, whose parts are counted down
from zero.

* `TimeUnit`, `Duration.unit`: the units of time values, the unit of a duration.
* `Duration.ofTimeText?`: reading a time value.
* `Duration.ofTimeText?_timeText`: **time values are read as they are written.**
* `Duration.timeText_exact`: time values are exact, coarsest and different for different durations.
-/

namespace SearchWire

/-! ## Units -/

/-- The units of time values. -/
inductive TimeUnit where
  | seconds
  | millis
  | micros
  deriving DecidableEq, Repr

namespace TimeUnit

/-- The length of a unit in microseconds. -/
def length : TimeUnit → Int
  | seconds => 1000000
  | millis => 1000
  | micros => 1

def text : TimeUnit → List Char
  | seconds => ['s']
  | millis => ['m', 's']
  | micros => "micros".toList

/-- The unit that a text names. -/
def ofText? (cs : List Char) : Option TimeUnit := [seconds, millis, micros].find? (·.text = cs)

theorem ofText?_text (u : TimeUnit) : ofText? u.text = some u := by
  cases u <;> decide

/-- No number goes on into its unit. -/
theorem ends_text (u : TimeUnit) : Json.Ends u.text := by
  intro c hc
  cases u <;> (cases hc; decide)

end TimeUnit

namespace Duration

open Decimal (intDigits natDigits)

/-- The coarsest unit that leaves nothing of a duration over. -/
def unit (d : Duration) : TimeUnit :=
  if d.micros % 1000000 = 0 then .seconds else if d.micros % 1000 = 0 then .millis else .micros

theorem unit_length_dvd (d : Duration) : d.unit.length ∣ d.micros := by
  unfold unit
  split
  · next hseconds => exact Int.dvd_of_emod_eq_zero hseconds
  · split
    · next hmillis => exact Int.dvd_of_emod_eq_zero hmillis
    · exact Int.one_dvd d.micros

/-- A unit that is coarser leaves something over. -/
theorem length_le_of_dvd {d : Duration} {u : TimeUnit} (h : u.length ∣ d.micros) :
    u.length ≤ d.unit.length := by
  unfold unit
  split
  · cases u <;> decide
  · next hseconds =>
    split
    · cases u with
      | seconds => exact absurd (Int.emod_eq_zero_of_dvd h) hseconds
      | millis => decide
      | micros => decide
    · next hmillis =>
      cases u with
      | seconds => exact absurd (Int.emod_eq_zero_of_dvd h) hseconds
      | millis => exact absurd (Int.emod_eq_zero_of_dvd h) hmillis
      | micros => decide

/-- What is written is the unit, after how many of it there are. -/
theorem timeText_eq (d : Duration) :
    d.timeText = intDigits (d.micros / d.unit.length) ++ d.unit.text := by
  unfold timeText unit
  split
  · next hmicros =>
    have hseconds : d.micros % 1000000 ≠ 0 := by omega
    simp only [if_neg hseconds, TimeUnit.length, Int.ediv_one]
    rfl
  · next hmillis =>
    have hmillis : d.micros % 1000 = 0 := Decidable.not_not.1 hmillis
    have hnested : d.micros / 1000 / 1000 = d.micros / 1000000 := by omega
    have hiff : d.micros / 1000 % 1000 = 0 ↔ d.micros % 1000000 = 0 := by omega
    simp only [hnested, hiff, if_pos hmillis]
    split <;> rfl

/-! ## Reading time values -/

/-- The duration that a time value writes: a sign, digits, a unit. -/
def ofTimeText? (cs : List Char) : Option Duration :=
  let (negative, cs) := Numeral.splitSign cs
  match Json.splitDigits cs with
  | ([], _) => none
  | (ds, unit) => (TimeUnit.ofText? unit).map fun u =>
      ⟨Numeral.signed negative (Numeral.ofDigits ds) * u.length⟩

/-- The sign and the digits of a number in front of a text that does not go on with digits. -/
theorem splitSign_intDigits (k : Int) (rest : List Char) :
    Numeral.splitSign (intDigits k ++ rest) = (decide (k < 0), natDigits k.natAbs ++ rest) := by
  unfold intDigits
  split
  · next hneg => simp [Numeral.splitSign, hneg]
  · next hpos =>
    obtain ⟨c, cs, hcs⟩ : ∃ c cs, natDigits k.natAbs = c :: cs :=
      List.exists_cons_of_ne_nil Nat.toDigits_ne_nil
    have hdigit : c.isDigit := Decimal.isDigit_of_mem_natDigits (n := k.natAbs) (by simp [hcs])
    have hminus : c ≠ '-' := by
      rintro rfl
      exact absurd hdigit (by decide)
    have hplus : c ≠ '+' := by
      rintro rfl
      exact absurd hdigit (by decide)
    rw [hcs, decide_eq_false hpos, List.cons_append]
    unfold Numeral.splitSign
    split
    · next heq => exact absurd (List.cons.inj heq).1 hminus
    · next heq => exact absurd (List.cons.inj heq).1 hplus
    · rfl

theorem signed_natAbs (k : Int) : Numeral.signed (decide (k < 0)) k.natAbs = k := by
  unfold Numeral.signed
  by_cases h : k < 0
  · rw [decide_eq_true h, if_pos rfl]
    omega
  · rw [decide_eq_false h, if_neg Bool.false_ne_true]
    omega

/-- A number of units is read as it is written. -/
theorem ofTimeText?_append (k : Int) (u : TimeUnit) :
    ofTimeText? (intDigits k ++ u.text) = some ⟨k * u.length⟩ := by
  obtain ⟨c, cs, hcs⟩ : ∃ c cs, natDigits k.natAbs = c :: cs :=
    List.exists_cons_of_ne_nil Nat.toDigits_ne_nil
  have hdigits := Json.splitDigits_append
    (fun c hc => Decimal.isDigit_of_mem_natDigits (n := k.natAbs) hc) u.ends_text.noDigit
  have hvalue := Decimal.ofDigits_natDigits k.natAbs
  have hsign := splitSign_intDigits k u.text
  rw [hcs, List.map_cons] at hdigits hvalue
  rw [hcs] at hsign
  simp only [ofTimeText?, hsign, hdigits, hvalue, signed_natAbs, u.ofText?_text, Option.map_some]

/-- **Time values are read as they are written.** -/
theorem ofTimeText?_timeText (d : Duration) : ofTimeText? d.timeText = some d := by
  rw [timeText_eq, ofTimeText?_append, Int.ediv_mul_cancel d.unit_length_dvd]

/-- Different durations have different time values. -/
theorem timeText_injective {d e : Duration}
    (h : SearchWire.timeText (.duration d) = SearchWire.timeText (.duration e)) : d = e := by
  have htext : d.timeText = e.timeText := String.ofList_inj.1 (Value.str.inj (Except.ok.inj h))
  have hread := ofTimeText?_timeText d
  rw [htext, ofTimeText?_timeText] at hread
  exact (Option.some.inj hread).symm

/-- **Time values are exact.** The time value of a duration is a whole number of one unit that
is the duration, and of no coarser unit. It is read as the duration, and no other one has it. -/
theorem timeText_exact (d : Duration) :
    ∃ (k : Int) (u : TimeUnit),
      SearchWire.timeText (.duration d) = .ok (.str (String.ofList (intDigits k ++ u.text))) ∧
      k * u.length = d.micros ∧
      (∀ (v : TimeUnit) (n : Int), n * v.length = d.micros → v.length ≤ u.length) ∧
      ofTimeText? (intDigits k ++ u.text) = some d ∧
      ∀ e, SearchWire.timeText (.duration e) = SearchWire.timeText (.duration d) → e = d := by
  have hexact := Int.ediv_mul_cancel d.unit_length_dvd
  refine ⟨d.micros / d.unit.length, d.unit, ?_, hexact, ?_, ?_, fun e => timeText_injective⟩
  · rw [← timeText_eq]
    rfl
  · intro v n hn
    exact length_le_of_dvd (hn ▸ Int.dvd_mul_left n v.length)
  · rw [ofTimeText?_append, hexact]

/-- The value of a duration of a second and a half, counted down. -/
theorem timeText_exact_negative :
    ∃ (k : Int) (u : TimeUnit),
      SearchWire.timeText (.duration ⟨-1500000⟩) =
        .ok (.str (String.ofList (intDigits k ++ u.text))) ∧
      k * u.length = -1500000 ∧ TimeUnit.millis.length ≤ u.length ∧
      ofTimeText? (intDigits k ++ u.text) = some ⟨-1500000⟩ := by
  obtain ⟨k, u, htext, hexact, hcoarsest, hread, -⟩ := timeText_exact ⟨-1500000⟩
  exact ⟨k, u, htext, hexact, hcoarsest .millis (-1500) rfl, hread⟩

end Duration

end SearchWire
