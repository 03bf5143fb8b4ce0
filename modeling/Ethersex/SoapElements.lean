import Ethersex.SoapProgress
import Mathlib.Data.List.TakeWhile

/-!
# What each tag of a request does to the parser

The first three start tags and the end of the body move the document on; an element that is
taken for the end of the body completes it early.
-/

namespace Ethersex.Soap

open ByteMemory CStrings

variable {env : SoapEnv} {ctx : Context} {progress after : Progress} {settled : Settled}
  {text more : List UInt8} {front byte : UInt8} {scope : Option Name}

/-- The buffer with the zero that `soap_parse_element` writes behind the tag. -/
def terminate (ctx : Context) : Context :=
  { ctx with buf := Function.update ctx.buf ctx.buflen 0 }

theorem Closed.stored_cons (closed : Closed (front :: text) settled ctx) :
    ctx.buf 0 = front ∧ readBlock ctx.buf 1 text.length = text := by
  have stored := closed.stored
  rw [List.length_cons, readBlock_succ, List.cons.injEq] at stored
  exact stored

theorem Closed.second (closed : Closed (front :: byte :: text) settled ctx) :
    ctx.buf 1 = byte := by
  have stored := closed.stored_cons.2
  rw [List.length_cons, readBlock_succ, List.cons.injEq] at stored
  exact stored.1

theorem Closed.terminate (closed : Closed text settled ctx) :
    Closed text settled (terminate ctx) := by
  refine ⟨closed.fits, closed.buflen, ?_, closed.settled⟩
  rw [Soap.terminate, readBlock_update 0 (Or.inr (by rw [closed.buflen]; omega))]
  exact closed.stored

theorem terminated (ctx : Context) : (terminate ctx).buf (terminate ctx).buflen = 0 :=
  Function.update_self ..

/-- The name stands behind the `<`. -/
theorem Closed.starts (closed : Closed (front :: (text ++ more)) settled ctx) (nonzero : 0 ∉ text) :
    text <+: cString ctx.buf 1 := by
  have stored := closed.stored_cons.2
  have fits := closed.fits
  rw [readBlock_append_iff] at stored
  rw [List.length_cons, List.length_append] at fits
  have space : addressSpace = 65536 := rfl
  exact prefix_cString nonzero stored.1 (by omega)

/-- All of the tag is the string behind the `<`. -/
theorem Closed.string (closed : Closed (front :: text) settled ctx) (nonzero : 0 ∉ text)
    (zero : ctx.buf ctx.buflen = 0) : cString ctx.buf 1 = text := by
  have fits := closed.fits
  have space : addressSpace = 65536 := rfl
  rw [List.length_cons] at fits
  rw [closed.buflen, List.length_cons, Nat.add_comm] at zero
  exact cString_eq nonzero closed.stored_cons.2 zero (by omega)

theorem Name.nonzero (name : Name) : 0 ∉ name.text :=
  fun zero => name.bytes 0 zero (by decide)

theorem Name.cons (name : Name) :
    ∃ first rest, name.text = first :: rest ∧ first ≠ slash ∧ first ≠ questionMark := by
  obtain ⟨first, rest, whole⟩ := List.exists_cons_of_ne_nil name.nonempty
  have other := name.bytes first (by rw [whole]; exact List.mem_cons_self ..)
  simp only [delimiters, List.mem_cons, not_or] at other
  exact ⟨first, rest, whole, other.2.2.2.2.1, other.2.2.2.2.2.2.2.2.2.1⟩

end Ethersex.Soap
