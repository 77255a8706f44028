import RegisterMap.AddressMap

namespace RegisterMap

/-- The spans that, together with registers in ascending order, cover every word from `cursor`
to the last register. A register below the cursor leaves no room for a span. -/
def reservedSpans (word : Word) (cursor : Nat) :
    List Register → Except Violation (List ReservedSpan)
  | [] => .ok []
  | r :: rest =>
    if r.address < cursor then .error (.negativeGap r.name r.address cursor)
    else do
      let spans ← reservedSpans word (r.address + word.bytes) rest
      if r.address = cursor then return spans
      else return ⟨cursor, (r.address - cursor) / word.bytes⟩ :: spans

end RegisterMap
