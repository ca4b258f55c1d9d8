import SearchWire.Failure

/-!
# Timeouts

A timeout is a duration or a time value that was written already; in a request it is a time value.

* `Duration.ofMicros`: a duration from its length.
* `TimeValue.ofValue`: the timeout that a value gives.
* `timeText`: its time value.
* `timeField`: the field of a request for a timeout that may not be set.
-/

namespace SearchWire

/-- A number of microseconds as a duration, unless it has too many days. -/
def Duration.ofMicros (n : Int) : Except Failure Duration :=
  let d : Duration := ⟨n⟩
  let days := d.parts.1
  if days.natAbs ≤ Duration.maxDays then .ok d else .error (.tooManyDays days)

/-- The timeout that a value gives. -/
def TimeValue.ofValue (v : Value) : Except Failure TimeValue :=
  match v with
  | .duration d => .ok (.span d)
  | .str s => .ok (.written s)
  | .member m => .ok (.written m.value)
  | v => .error (.notDuration v)

/-- The time value of a timeout. A member stays a member. -/
def timeText (v : Value) : Except Failure Value :=
  match v with
  | .member m => .ok (.member m)
  | v => do .ok (.str (← TimeValue.ofValue v).text)

/-- The field for a timeout, if it is set. -/
def timeField (name : String) (v : Value) : Except Failure Fields :=
  if v.isNull then .ok [] else do .ok [(name, ← timeText v)]

end SearchWire
