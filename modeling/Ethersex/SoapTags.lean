import Ethersex.SoapScanning

/-!
# The tags of a request in the buffer

What the scanner hands over at the end of each kind of tag: prefixes and declarations of namespaces
are taken back, and so is the type of an argument when a declaration follows it.
-/

namespace Ethersex.Soap

open ByteMemory CStrings

namespace Scan

variable {state : Within} {kept tail text : List UInt8} {scope : Option Name} {byte : UInt8}

theorem closed_of_solid {scan : Scan} (front : List UInt8) {last : UInt8}
    (content : scan.content = front ++ [last]) (solid : isblank last = false) :
    scan.closed = scan.content ++ [greater] := by
  rw [closed, content, List.getLast?_concat, Option.any_some, if_neg (ne_true_of_eq_false solid)]

theorem closed_of_blank {scan : Scan} (front : List UInt8) (last : UInt8)
    (content : scan.content = front ++ [last]) (blank : isblank last = true) :
    scan.closed = front ++ [greater] := by
  rw [closed, content, List.getLast?_concat, Option.any_some, if_pos blank, List.dropLast_concat]

/-- Behind `<`, the scanner reads the text and hands over a tag. -/
def HandsOver (text tag : List UInt8) : Prop :=
  ∃ next, (Scan.mk .element [less] []).bytes text = some next ∧ InTag next.state ∧
    next.closed = tag

variable {name : List UInt8}

/-- The scanner behind the name and a space. -/
def named (name : List UInt8) : List UInt8 := [less] ++ (name ++ [32])

end Scan

end Ethersex.Soap
