import Criteria.Time.Printer
import Criteria.Value

/-!
# Dates and times as values

A date or a time is a value as text.
-/

namespace Criteria.Value

def ofDate (d : Date) : Value :=
  .text (String.ofList d.render)

/-- A time of no known offset. -/
def ofLocalTime (t : Timestamp) : Value :=
  .text (String.ofList t.render)

/-- A time at offset zero. -/
def ofUniversalTime (t : Timestamp) : Value :=
  .text (String.ofList t.renderUniversal)

end Criteria.Value
