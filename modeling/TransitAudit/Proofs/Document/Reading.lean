import Mathlib.Data.String.Basic
import TransitAudit.Document.Navigate
import TransitAudit.Document.Source

/-! Reading from characters. A document or a path whose text is made of given characters is read
from these; how texts are stored plays no part. -/
namespace TransitAudit

open Text

theorem Text.byteSize_eq_utf8ByteSize (cs : List Char) :
    Cursor.byteSize cs = (String.ofList cs).utf8ByteSize := by
  -- the sum is taken from the front here and from the end there
  have hfold (n : Nat) : cs.foldl (fun n c => n + c.utf8Size) n = n + String.utf8Len cs := by
    induction cs generalizing n with
    | nil => rfl
    | cons c cs ih =>
      rw [List.foldl_cons, ih, String.utf8Len_cons]
      omega
  rw [Cursor.byteSize, hfold, Nat.zero_add, String.utf8ByteSize_ofList]

theorem Source.parse_ofList (name : String) (cs : List Char) :
    (Source.ofText name (String.ofList cs)).parse =
      match (do Xml.treeOf (← Xml.readProlog) (← Xml.readBody) : Reader Xml.Fault Xml.Tree)
          ⟨0, Cursor.byteSize cs, cs⟩ with
      | .ok (tree, _) => .ok ⟨tree, ⟨(0 :: Document.LineIndex.startsAfter 0 cs).toArray⟩⟩
      | .error fault => .error (.xmlParse name fault.message) := by
  rw [Source.parse, Xml.parse, Reader.runOn, Source.ofText, Cursor.ofString,
    Document.LineIndex.build, String.toList_ofList, ← byteSize_eq_utf8ByteSize]
  cases (do Xml.treeOf (← Xml.readProlog) (← Xml.readBody) : Reader Xml.Fault Xml.Tree)
    ⟨0, Cursor.byteSize cs, cs⟩ <;> rfl

theorem PathExpr.parse_ofList (cs : List Char) :
    PathExpr.parse (String.ofList cs) = match Path.readAlternatives cs with
      | .ok alternatives => .ok ⟨String.ofList cs, alternatives⟩
      | .error fault => .error (.invalidPath (String.ofList cs) fault.message) := by
  have hcs : (String.ofList cs).toList = cs := String.toList_ofList
  unfold PathExpr.parse
  cases hr : Path.readAlternatives cs <;> simp only [hcs, hr]

theorem PathExpr.parse_eq_ok_iff {text : String} {e : PathExpr} :
    PathExpr.parse text = .ok e ↔
      e.source = text ∧ Path.readAlternatives text.toList = .ok e.alternatives := by
  unfold PathExpr.parse
  cases h : Path.readAlternatives text.toList with
  | error fault => simp
  | ok alternatives =>
    obtain ⟨source, alternatives'⟩ := e
    simp [eq_comm]

end TransitAudit
