import ChipEight.Document.Decode
import ChipEight.Machine.Basic

/-!
# Machine configurations in documents

A machine is configured by a record with the fields `clock_frequency` and `seed`, or by a list of
the two in this order. Either may be missing or null.
-/
namespace ChipEight

open Document (Mismatch)

def Frequency.ofDocument (d : Document) : Except Mismatch Frequency := d.toWord.map Frequency.mk

namespace Machine.Config

def ofFields (fields : List (String × Document)) : Except Mismatch Config := do
  let rate ← Document.optionalField fields "clock_frequency" Frequency.ofDocument
  let seed ← Document.optionalField fields "seed" Document.toWord
  return ⟨rate, seed⟩

/-- The configuration in the items of a list. Items beyond the second are refused, after the first
two were looked at. -/
def ofItems (items : List Document) : Except Mismatch Config := do
  let rate ← Document.optional Frequency.ofDocument (items.getD 0 .null)
  let seed ← Document.optional Document.toWord (items.getD 1 .null)
  if items.length ≤ 2 then return ⟨rate, seed⟩ else .error (.length items.length)

def ofDocument : Document → Except Mismatch Config
  | .record fields => ofFields fields
  | .list items => ofItems items
  | d => .error (.kind d .machineConfig)

end Machine.Config

end ChipEight
