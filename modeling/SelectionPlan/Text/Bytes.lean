/-!
# Sizes in bytes

Places in a text are counted in bytes of its UTF-8 form. Sizes add up, so the offset of an ending
of a text is the difference of the two sizes.
-/
namespace SelectionPlan.Text

def byteSize : List Char → Nat
  | [] => 0
  | c :: rest => c.utf8Size + byteSize rest

theorem byteSize_append (front rest : List Char) :
    byteSize (front ++ rest) = byteSize front + byteSize rest := by
  induction front with
  | nil => simp [byteSize]
  | cons c front ih => simp [byteSize, ih, Nat.add_assoc]

def offset (text rest : List Char) : Nat :=
  byteSize text - byteSize rest

theorem offset_append (front rest : List Char) : offset (front ++ rest) rest = byteSize front := by
  simp [offset, byteSize_append]

end SelectionPlan.Text
