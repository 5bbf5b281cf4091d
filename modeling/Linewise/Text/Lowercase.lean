import Linewise.Text.Rune

/-!
# Lower case

The simple lower-case mapping of Unicode: one character to one character. It is
what makes policies, log levels and environment variables insensitive to case,
also for letters such as the Kelvin sign, whose lower case is an ASCII `k`.

## Main definitions

* `Lowercase.Range` — evenly spaced capitals that map to evenly spaced small letters.
* `Lowercase.ranges` — the mapping of Unicode 15.0 as such ranges.
* `Bytes.toLower` — a text in lower case; a stray byte becomes U+FFFD.
-/

namespace Linewise

namespace Lowercase

/-- **Capitals from `low` to `high`, every `step` code points**, whose small letters start at
`small` and keep the spacing. -/
structure Range where
  /-- The first capital. -/
  low : Nat
  /-- The last capital. -/
  high : Nat
  /-- The distance of one capital to the next. -/
  step : Nat
  /-- The small letter of the first capital. -/
  small : Nat

/-- The code point that a range maps `code` to, if it is one of its capitals. -/
def Range.map? (range : Range) (code : Nat) : Option Nat :=
  if range.low ≤ code && code ≤ range.high && (code - range.low) % range.step = 0 then
    some (range.small + (code - range.low))
  else
    none

/-- The characters whose simple lower case differs from them, in Unicode 15.0. -/
def ranges : List Range := [
  ⟨0x41, 0x5a, 1, 97⟩, ⟨0xc0, 0xd6, 1, 224⟩, ⟨0xd8, 0xde, 1, 248⟩, ⟨0x100, 0x12e, 2, 257⟩,
  ⟨0x130, 0x130, 1, 105⟩, ⟨0x132, 0x136, 2, 307⟩, ⟨0x139, 0x147, 2, 314⟩, ⟨0x14a, 0x176, 2, 331⟩,
  ⟨0x178, 0x178, 1, 255⟩, ⟨0x179, 0x17d, 2, 378⟩, ⟨0x181, 0x181, 1, 595⟩, ⟨0x182, 0x184, 2, 387⟩,
  ⟨0x186, 0x186, 1, 596⟩, ⟨0x187, 0x187, 1, 392⟩, ⟨0x189, 0x18a, 1, 598⟩, ⟨0x18b, 0x18b, 1, 396⟩,
  ⟨0x18e, 0x18e, 1, 477⟩, ⟨0x18f, 0x18f, 1, 601⟩, ⟨0x190, 0x190, 1, 603⟩, ⟨0x191, 0x191, 1, 402⟩,
  ⟨0x193, 0x193, 1, 608⟩, ⟨0x194, 0x194, 1, 611⟩, ⟨0x196, 0x196, 1, 617⟩, ⟨0x197, 0x197, 1, 616⟩,
  ⟨0x198, 0x198, 1, 409⟩, ⟨0x19c, 0x19c, 1, 623⟩, ⟨0x19d, 0x19d, 1, 626⟩, ⟨0x19f, 0x19f, 1, 629⟩,
  ⟨0x1a0, 0x1a4, 2, 417⟩, ⟨0x1a6, 0x1a6, 1, 640⟩, ⟨0x1a7, 0x1a7, 1, 424⟩, ⟨0x1a9, 0x1a9, 1, 643⟩,
  ⟨0x1ac, 0x1ac, 1, 429⟩, ⟨0x1ae, 0x1ae, 1, 648⟩, ⟨0x1af, 0x1af, 1, 432⟩, ⟨0x1b1, 0x1b2, 1, 650⟩,
  ⟨0x1b3, 0x1b5, 2, 436⟩, ⟨0x1b7, 0x1b7, 1, 658⟩, ⟨0x1b8, 0x1b8, 1, 441⟩, ⟨0x1bc, 0x1bc, 1, 445⟩,
  ⟨0x1c4, 0x1c4, 1, 454⟩, ⟨0x1c5, 0x1c5, 1, 454⟩, ⟨0x1c7, 0x1c7, 1, 457⟩, ⟨0x1c8, 0x1c8, 1, 457⟩,
  ⟨0x1ca, 0x1ca, 1, 460⟩, ⟨0x1cb, 0x1db, 2, 460⟩, ⟨0x1de, 0x1ee, 2, 479⟩, ⟨0x1f1, 0x1f1, 1, 499⟩,
  ⟨0x1f2, 0x1f4, 2, 499⟩, ⟨0x1f6, 0x1f6, 1, 405⟩, ⟨0x1f7, 0x1f7, 1, 447⟩, ⟨0x1f8, 0x21e, 2, 505⟩,
  ⟨0x220, 0x220, 1, 414⟩, ⟨0x222, 0x232, 2, 547⟩, ⟨0x23a, 0x23a, 1, 11365⟩,
  ⟨0x23b, 0x23b, 1, 572⟩, ⟨0x23d, 0x23d, 1, 410⟩, ⟨0x23e, 0x23e, 1, 11366⟩,
  ⟨0x241, 0x241, 1, 578⟩, ⟨0x243, 0x243, 1, 384⟩, ⟨0x244, 0x244, 1, 649⟩, ⟨0x245, 0x245, 1, 652⟩,
  ⟨0x246, 0x24e, 2, 583⟩, ⟨0x370, 0x372, 2, 881⟩, ⟨0x376, 0x376, 1, 887⟩,
  ⟨0x37f, 0x37f, 1, 1011⟩, ⟨0x386, 0x386, 1, 940⟩, ⟨0x388, 0x38a, 1, 941⟩,
  ⟨0x38c, 0x38c, 1, 972⟩, ⟨0x38e, 0x38f, 1, 973⟩, ⟨0x391, 0x3a1, 1, 945⟩, ⟨0x3a3, 0x3ab, 1, 963⟩,
  ⟨0x3cf, 0x3cf, 1, 983⟩, ⟨0x3d8, 0x3ee, 2, 985⟩, ⟨0x3f4, 0x3f4, 1, 952⟩,
  ⟨0x3f7, 0x3f7, 1, 1016⟩, ⟨0x3f9, 0x3f9, 1, 1010⟩, ⟨0x3fa, 0x3fa, 1, 1019⟩,
  ⟨0x3fd, 0x3ff, 1, 891⟩, ⟨0x400, 0x40f, 1, 1104⟩, ⟨0x410, 0x42f, 1, 1072⟩,
  ⟨0x460, 0x480, 2, 1121⟩, ⟨0x48a, 0x4be, 2, 1163⟩, ⟨0x4c0, 0x4c0, 1, 1231⟩,
  ⟨0x4c1, 0x4cd, 2, 1218⟩, ⟨0x4d0, 0x52e, 2, 1233⟩, ⟨0x531, 0x556, 1, 1377⟩,
  ⟨0x10a0, 0x10c5, 1, 11520⟩, ⟨0x10c7, 0x10c7, 1, 11559⟩, ⟨0x10cd, 0x10cd, 1, 11565⟩,
  ⟨0x13a0, 0x13ef, 1, 43888⟩, ⟨0x13f0, 0x13f5, 1, 5112⟩, ⟨0x1c90, 0x1cba, 1, 4304⟩,
  ⟨0x1cbd, 0x1cbf, 1, 4349⟩, ⟨0x1e00, 0x1e94, 2, 7681⟩, ⟨0x1e9e, 0x1e9e, 1, 223⟩,
  ⟨0x1ea0, 0x1efe, 2, 7841⟩, ⟨0x1f08, 0x1f0f, 1, 7936⟩, ⟨0x1f18, 0x1f1d, 1, 7952⟩,
  ⟨0x1f28, 0x1f2f, 1, 7968⟩, ⟨0x1f38, 0x1f3f, 1, 7984⟩, ⟨0x1f48, 0x1f4d, 1, 8000⟩,
  ⟨0x1f59, 0x1f5f, 2, 8017⟩, ⟨0x1f68, 0x1f6f, 1, 8032⟩, ⟨0x1f88, 0x1f8f, 1, 8064⟩,
  ⟨0x1f98, 0x1f9f, 1, 8080⟩, ⟨0x1fa8, 0x1faf, 1, 8096⟩, ⟨0x1fb8, 0x1fb9, 1, 8112⟩,
  ⟨0x1fba, 0x1fbb, 1, 8048⟩, ⟨0x1fbc, 0x1fbc, 1, 8115⟩, ⟨0x1fc8, 0x1fcb, 1, 8050⟩,
  ⟨0x1fcc, 0x1fcc, 1, 8131⟩, ⟨0x1fd8, 0x1fd9, 1, 8144⟩, ⟨0x1fda, 0x1fdb, 1, 8054⟩,
  ⟨0x1fe8, 0x1fe9, 1, 8160⟩, ⟨0x1fea, 0x1feb, 1, 8058⟩, ⟨0x1fec, 0x1fec, 1, 8165⟩,
  ⟨0x1ff8, 0x1ff9, 1, 8056⟩, ⟨0x1ffa, 0x1ffb, 1, 8060⟩, ⟨0x1ffc, 0x1ffc, 1, 8179⟩,
  ⟨0x2126, 0x2126, 1, 969⟩, ⟨0x212a, 0x212a, 1, 107⟩, ⟨0x212b, 0x212b, 1, 229⟩,
  ⟨0x2132, 0x2132, 1, 8526⟩, ⟨0x2160, 0x216f, 1, 8560⟩, ⟨0x2183, 0x2183, 1, 8580⟩,
  ⟨0x24b6, 0x24cf, 1, 9424⟩, ⟨0x2c00, 0x2c2f, 1, 11312⟩, ⟨0x2c60, 0x2c60, 1, 11361⟩,
  ⟨0x2c62, 0x2c62, 1, 619⟩, ⟨0x2c63, 0x2c63, 1, 7549⟩, ⟨0x2c64, 0x2c64, 1, 637⟩,
  ⟨0x2c67, 0x2c6b, 2, 11368⟩, ⟨0x2c6d, 0x2c6d, 1, 593⟩, ⟨0x2c6e, 0x2c6e, 1, 625⟩,
  ⟨0x2c6f, 0x2c6f, 1, 592⟩, ⟨0x2c70, 0x2c70, 1, 594⟩, ⟨0x2c72, 0x2c72, 1, 11379⟩,
  ⟨0x2c75, 0x2c75, 1, 11382⟩, ⟨0x2c7e, 0x2c7f, 1, 575⟩, ⟨0x2c80, 0x2ce2, 2, 11393⟩,
  ⟨0x2ceb, 0x2ced, 2, 11500⟩, ⟨0x2cf2, 0x2cf2, 1, 11507⟩, ⟨0xa640, 0xa66c, 2, 42561⟩,
  ⟨0xa680, 0xa69a, 2, 42625⟩, ⟨0xa722, 0xa72e, 2, 42787⟩, ⟨0xa732, 0xa76e, 2, 42803⟩,
  ⟨0xa779, 0xa77b, 2, 42874⟩, ⟨0xa77d, 0xa77d, 1, 7545⟩, ⟨0xa77e, 0xa786, 2, 42879⟩,
  ⟨0xa78b, 0xa78b, 1, 42892⟩, ⟨0xa78d, 0xa78d, 1, 613⟩, ⟨0xa790, 0xa792, 2, 42897⟩,
  ⟨0xa796, 0xa7a8, 2, 42903⟩, ⟨0xa7aa, 0xa7aa, 1, 614⟩, ⟨0xa7ab, 0xa7ab, 1, 604⟩,
  ⟨0xa7ac, 0xa7ac, 1, 609⟩, ⟨0xa7ad, 0xa7ad, 1, 620⟩, ⟨0xa7ae, 0xa7ae, 1, 618⟩,
  ⟨0xa7b0, 0xa7b0, 1, 670⟩, ⟨0xa7b1, 0xa7b1, 1, 647⟩, ⟨0xa7b2, 0xa7b2, 1, 669⟩,
  ⟨0xa7b3, 0xa7b3, 1, 43859⟩, ⟨0xa7b4, 0xa7c2, 2, 42933⟩, ⟨0xa7c4, 0xa7c4, 1, 42900⟩,
  ⟨0xa7c5, 0xa7c5, 1, 642⟩, ⟨0xa7c6, 0xa7c6, 1, 7566⟩, ⟨0xa7c7, 0xa7c9, 2, 42952⟩,
  ⟨0xa7d0, 0xa7d0, 1, 42961⟩, ⟨0xa7d6, 0xa7d8, 2, 42967⟩, ⟨0xa7f5, 0xa7f5, 1, 42998⟩,
  ⟨0xff21, 0xff3a, 1, 65345⟩, ⟨0x10400, 0x10427, 1, 66600⟩, ⟨0x104b0, 0x104d3, 1, 66776⟩,
  ⟨0x10570, 0x1057a, 1, 66967⟩, ⟨0x1057c, 0x1058a, 1, 66979⟩, ⟨0x1058c, 0x10592, 1, 66995⟩,
  ⟨0x10594, 0x10595, 1, 67003⟩, ⟨0x10c80, 0x10cb2, 1, 68800⟩, ⟨0x118a0, 0x118bf, 1, 71872⟩,
  ⟨0x16e40, 0x16e5f, 1, 93792⟩, ⟨0x1e900, 0x1e921, 1, 125218⟩]

end Lowercase

/-- The simple lower case of a character. -/
def lowercase (c : Char) : Char :=
  match Lowercase.ranges.findSome? (·.map? c.toNat) with
  | some code => Char.ofNat code
  | none => c

/-- The text in lower case, character by character; a stray byte becomes U+FFFD. -/
def Bytes.toLower (text : Bytes) : Bytes :=
  ofChars ((shownChars text).map lowercase)

end Linewise
