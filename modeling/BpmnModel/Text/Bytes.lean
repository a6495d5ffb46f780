/-!
# Byte offsets

Places in a document are told as byte offsets of its UTF-8 form.  Readers keep what remains
to be read and nothing else; an offset is then the size of the whole less the size of the
remainder.

## Main definitions

* `Text.byteSize cs` — the number of bytes of `cs`.
* `Text.offset whole rest` — where the remainder `rest` of `whole` begins.
-/

namespace BpmnModel.Text

/-- The number of bytes of the UTF-8 form. -/
def byteSize (cs : List Char) : Nat :=
  cs.foldl (fun n c => n + c.utf8Size) 0

/-- The byte offset at which the remainder `rest` of `whole` begins. -/
def offset (whole rest : List Char) : Nat :=
  byteSize whole - byteSize rest

private theorem foldl_utf8Size (cs : List Char) (n : Nat) :
    cs.foldl (fun n c => n + c.utf8Size) n = n + byteSize cs := by
  induction cs generalizing n with
  | nil => rfl
  | cons c cs ih =>
    rw [byteSize, List.foldl_cons, List.foldl_cons, ih, ih (0 + c.utf8Size)]
    omega

@[simp] theorem byteSize_nil : byteSize [] = 0 := rfl

@[simp] theorem byteSize_cons (c : Char) (cs : List Char) :
    byteSize (c :: cs) = c.utf8Size + byteSize cs := by
  rw [byteSize, List.foldl_cons, foldl_utf8Size]
  omega

end BpmnModel.Text
