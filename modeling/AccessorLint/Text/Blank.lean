import AccessorLint.Text.Table
set_option autoImplicit false

/-!
The blank characters: the ones that separate words and that trimming removes.
-/

namespace AccessorLint.Text

/-- The code points of blanks, in increasing order. -/
def blanks : Table :=
   [(0x9, 0xD), (0x1C, 0x20), (0x85, 0x85), (0xA0, 0xA0), (0x1680, 0x1680), (0x2000, 0x200A),
    (0x2028, 0x2029), (0x202F, 0x202F), (0x205F, 0x205F), (0x3000, 0x3000)]

end AccessorLint.Text
