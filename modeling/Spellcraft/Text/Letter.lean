/-! # Letters

Names in content files and in environment files may hold letters of any script. Beyond ASCII a
letter is told by its block: `letterBlocks` lists the blocks that are made of letters, and counts
the few other characters in between as letters too.
-/

namespace Spellcraft

def letterBlocks : List (Nat × Nat) :=
  [(0xAA, 0xAA), (0xB5, 0xB5), (0xBA, 0xBA), (0xC0, 0xD6), (0xD8, 0xF6), (0xF8, 0x2C1),
    (0x370, 0x373), (0x376, 0x377), (0x37B, 0x37D), (0x386, 0x386), (0x388, 0x481),
    (0x48A, 0x55F), (0x561, 0x587), (0x5D0, 0x5F2), (0x620, 0x64A), (0x671, 0x6D3),
    (0x900, 0x109F), (0x10A0, 0x1FFC), (0x2071, 0x2071), (0x207F, 0x207F), (0x2090, 0x209C),
    (0x2102, 0x2184), (0x2C00, 0x2DDE), (0x3005, 0x3007), (0x3031, 0x3035), (0x3041, 0x3096),
    (0x309D, 0x309F), (0x30A1, 0x30FA), (0x30FC, 0x31BF), (0x31F0, 0x31FF), (0x3400, 0x4DBF),
    (0x4E00, 0xA48C), (0xA4D0, 0xD7FB), (0xF900, 0xFB06), (0xFB13, 0xFB4F), (0xFB50, 0xFDFB),
    (0xFE70, 0xFEFC), (0xFF21, 0xFF3A), (0xFF41, 0xFF5A), (0xFF66, 0xFFDC),
    (0x10000, 0x1CFFF), (0x1D400, 0x1D7CB), (0x1E000, 0x1EEFF), (0x20000, 0x3134F)]

def isLetter (c : Char) : Bool :=
  c.isAlpha || letterBlocks.any fun b => b.1 ≤ c.toNat && c.toNat ≤ b.2

end Spellcraft
