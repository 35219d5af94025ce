import Pseudocode.Text.Basic

/-!
# Letters under their accents

The canonical decomposition of a character, with its nonspacing marks left out. Most entries lead
from an accented letter to its plain letter; a few lead to two or three characters. Compatibility
ideographs stand for one unified ideograph each, and Hangul syllables are taken apart by
arithmetic into two or three letters.
-/

namespace Pseudocode.Text

/-- The characters that decompose, in runs that share one decomposition. -/
def plainRuns : List (Nat × Nat × List Nat) :=
  [(0xC0, 0xC5, [0x41]), (0xC7, 0xC7, [0x43]), (0xC8, 0xCB, [0x45]), (0xCC, 0xCF, [0x49]),
   (0xD1, 0xD1, [0x4E]), (0xD2, 0xD6, [0x4F]), (0xD9, 0xDC, [0x55]), (0xDD, 0xDD, [0x59]),
   (0xE0, 0xE5, [0x61]), (0xE7, 0xE7, [0x63]), (0xE8, 0xEB, [0x65]), (0xEC, 0xEF, [0x69]),
   (0xF1, 0xF1, [0x6E]), (0xF2, 0xF6, [0x6F]), (0xF9, 0xFC, [0x75]), (0xFD, 0xFD, [0x79]),
   (0xFF, 0xFF, [0x79]), (0x100, 0x100, [0x41]), (0x101, 0x101, [0x61]), (0x102, 0x102, [0x41]),
   (0x103, 0x103, [0x61]), (0x104, 0x104, [0x41]), (0x105, 0x105, [0x61]), (0x106, 0x106, [0x43]),
   (0x107, 0x107, [0x63]), (0x108, 0x108, [0x43]), (0x109, 0x109, [0x63]), (0x10A, 0x10A, [0x43]),
   (0x10B, 0x10B, [0x63]), (0x10C, 0x10C, [0x43]), (0x10D, 0x10D, [0x63]), (0x10E, 0x10E, [0x44]),
   (0x10F, 0x10F, [0x64]), (0x112, 0x112, [0x45]), (0x113, 0x113, [0x65]), (0x114, 0x114, [0x45]),
   (0x115, 0x115, [0x65]), (0x116, 0x116, [0x45]), (0x117, 0x117, [0x65]), (0x118, 0x118, [0x45]),
   (0x119, 0x119, [0x65]), (0x11A, 0x11A, [0x45]), (0x11B, 0x11B, [0x65]), (0x11C, 0x11C, [0x47]),
   (0x11D, 0x11D, [0x67]), (0x11E, 0x11E, [0x47]), (0x11F, 0x11F, [0x67]), (0x120, 0x120, [0x47]),
   (0x121, 0x121, [0x67]), (0x122, 0x122, [0x47]), (0x123, 0x123, [0x67]), (0x124, 0x124, [0x48]),
   (0x125, 0x125, [0x68]), (0x128, 0x128, [0x49]), (0x129, 0x129, [0x69]), (0x12A, 0x12A, [0x49]),
   (0x12B, 0x12B, [0x69]), (0x12C, 0x12C, [0x49]), (0x12D, 0x12D, [0x69]), (0x12E, 0x12E, [0x49]),
   (0x12F, 0x12F, [0x69]), (0x130, 0x130, [0x49]), (0x134, 0x134, [0x4A]), (0x135, 0x135, [0x6A]),
   (0x136, 0x136, [0x4B]), (0x137, 0x137, [0x6B]), (0x139, 0x139, [0x4C]), (0x13A, 0x13A, [0x6C]),
   (0x13B, 0x13B, [0x4C]), (0x13C, 0x13C, [0x6C]), (0x13D, 0x13D, [0x4C]), (0x13E, 0x13E, [0x6C]),
   (0x143, 0x143, [0x4E]), (0x144, 0x144, [0x6E]), (0x145, 0x145, [0x4E]), (0x146, 0x146, [0x6E]),
   (0x147, 0x147, [0x4E]), (0x148, 0x148, [0x6E]), (0x14C, 0x14C, [0x4F]), (0x14D, 0x14D, [0x6F]),
   (0x14E, 0x14E, [0x4F]), (0x14F, 0x14F, [0x6F]), (0x150, 0x150, [0x4F]), (0x151, 0x151, [0x6F]),
   (0x154, 0x154, [0x52]), (0x155, 0x155, [0x72]), (0x156, 0x156, [0x52]), (0x157, 0x157, [0x72]),
   (0x158, 0x158, [0x52]), (0x159, 0x159, [0x72]), (0x15A, 0x15A, [0x53]), (0x15B, 0x15B, [0x73]),
   (0x15C, 0x15C, [0x53]), (0x15D, 0x15D, [0x73]), (0x15E, 0x15E, [0x53]), (0x15F, 0x15F, [0x73]),
   (0x160, 0x160, [0x53]), (0x161, 0x161, [0x73]), (0x162, 0x162, [0x54]), (0x163, 0x163, [0x74]),
   (0x164, 0x164, [0x54]), (0x165, 0x165, [0x74]), (0x168, 0x168, [0x55]), (0x169, 0x169, [0x75]),
   (0x16A, 0x16A, [0x55]), (0x16B, 0x16B, [0x75]), (0x16C, 0x16C, [0x55]), (0x16D, 0x16D, [0x75]),
   (0x16E, 0x16E, [0x55]), (0x16F, 0x16F, [0x75]), (0x170, 0x170, [0x55]), (0x171, 0x171, [0x75]),
   (0x172, 0x172, [0x55]), (0x173, 0x173, [0x75]), (0x174, 0x174, [0x57]), (0x175, 0x175, [0x77]),
   (0x176, 0x176, [0x59]), (0x177, 0x177, [0x79]), (0x178, 0x178, [0x59]), (0x179, 0x179, [0x5A]),
   (0x17A, 0x17A, [0x7A]), (0x17B, 0x17B, [0x5A]), (0x17C, 0x17C, [0x7A]), (0x17D, 0x17D, [0x5A]),
   (0x17E, 0x17E, [0x7A]), (0x1A0, 0x1A0, [0x4F]), (0x1A1, 0x1A1, [0x6F]), (0x1AF, 0x1AF, [0x55]),
   (0x1B0, 0x1B0, [0x75]), (0x1CD, 0x1CD, [0x41]), (0x1CE, 0x1CE, [0x61]), (0x1CF, 0x1CF, [0x49]),
   (0x1D0, 0x1D0, [0x69]), (0x1D1, 0x1D1, [0x4F]), (0x1D2, 0x1D2, [0x6F]), (0x1D3, 0x1D3, [0x55]),
   (0x1D4, 0x1D4, [0x75]), (0x1D5, 0x1D5, [0x55]), (0x1D6, 0x1D6, [0x75]), (0x1D7, 0x1D7, [0x55]),
   (0x1D8, 0x1D8, [0x75]), (0x1D9, 0x1D9, [0x55]), (0x1DA, 0x1DA, [0x75]), (0x1DB, 0x1DB, [0x55]),
   (0x1DC, 0x1DC, [0x75]), (0x1DE, 0x1DE, [0x41]), (0x1DF, 0x1DF, [0x61]), (0x1E0, 0x1E0, [0x41]),
   (0x1E1, 0x1E1, [0x61]), (0x1E2, 0x1E2, [0xC6]), (0x1E3, 0x1E3, [0xE6]), (0x1E6, 0x1E6, [0x47]),
   (0x1E7, 0x1E7, [0x67]), (0x1E8, 0x1E8, [0x4B]), (0x1E9, 0x1E9, [0x6B]), (0x1EA, 0x1EA, [0x4F]),
   (0x1EB, 0x1EB, [0x6F]), (0x1EC, 0x1EC, [0x4F]), (0x1ED, 0x1ED, [0x6F]),
   (0x1EE, 0x1EE, [0x1B7]), (0x1EF, 0x1EF, [0x292]), (0x1F0, 0x1F0, [0x6A]),
   (0x1F4, 0x1F4, [0x47]), (0x1F5, 0x1F5, [0x67]), (0x1F8, 0x1F8, [0x4E]), (0x1F9, 0x1F9, [0x6E]),
   (0x1FA, 0x1FA, [0x41]), (0x1FB, 0x1FB, [0x61]), (0x1FC, 0x1FC, [0xC6]), (0x1FD, 0x1FD, [0xE6]),
   (0x1FE, 0x1FE, [0xD8]), (0x1FF, 0x1FF, [0xF8]), (0x200, 0x200, [0x41]), (0x201, 0x201, [0x61]),
   (0x202, 0x202, [0x41]), (0x203, 0x203, [0x61]), (0x204, 0x204, [0x45]), (0x205, 0x205, [0x65]),
   (0x206, 0x206, [0x45]), (0x207, 0x207, [0x65]), (0x208, 0x208, [0x49]), (0x209, 0x209, [0x69]),
   (0x20A, 0x20A, [0x49]), (0x20B, 0x20B, [0x69]), (0x20C, 0x20C, [0x4F]), (0x20D, 0x20D, [0x6F]),
   (0x20E, 0x20E, [0x4F]), (0x20F, 0x20F, [0x6F]), (0x210, 0x210, [0x52]), (0x211, 0x211, [0x72]),
   (0x212, 0x212, [0x52]), (0x213, 0x213, [0x72]), (0x214, 0x214, [0x55]), (0x215, 0x215, [0x75]),
   (0x216, 0x216, [0x55]), (0x217, 0x217, [0x75]), (0x218, 0x218, [0x53]), (0x219, 0x219, [0x73]),
   (0x21A, 0x21A, [0x54]), (0x21B, 0x21B, [0x74]), (0x21E, 0x21E, [0x48]), (0x21F, 0x21F, [0x68]),
   (0x226, 0x226, [0x41]), (0x227, 0x227, [0x61]), (0x228, 0x228, [0x45]), (0x229, 0x229, [0x65]),
   (0x22A, 0x22A, [0x4F]), (0x22B, 0x22B, [0x6F]), (0x22C, 0x22C, [0x4F]), (0x22D, 0x22D, [0x6F]),
   (0x22E, 0x22E, [0x4F]), (0x22F, 0x22F, [0x6F]), (0x230, 0x230, [0x4F]), (0x231, 0x231, [0x6F]),
   (0x232, 0x232, [0x59]), (0x233, 0x233, [0x79]), (0x374, 0x374, [0x2B9]),
   (0x37E, 0x37E, [0x3B]), (0x385, 0x385, [0xA8]), (0x386, 0x386, [0x391]),
   (0x387, 0x387, [0xB7]), (0x388, 0x388, [0x395]), (0x389, 0x389, [0x397]),
   (0x38A, 0x38A, [0x399]), (0x38C, 0x38C, [0x39F]), (0x38E, 0x38E, [0x3A5]),
   (0x38F, 0x38F, [0x3A9]), (0x390, 0x390, [0x3B9]), (0x3AA, 0x3AA, [0x399]),
   (0x3AB, 0x3AB, [0x3A5]), (0x3AC, 0x3AC, [0x3B1]), (0x3AD, 0x3AD, [0x3B5]),
   (0x3AE, 0x3AE, [0x3B7]), (0x3AF, 0x3AF, [0x3B9]), (0x3B0, 0x3B0, [0x3C5]),
   (0x3CA, 0x3CA, [0x3B9]), (0x3CB, 0x3CB, [0x3C5]), (0x3CC, 0x3CC, [0x3BF]),
   (0x3CD, 0x3CD, [0x3C5]), (0x3CE, 0x3CE, [0x3C9]), (0x3D3, 0x3D4, [0x3D2]),
   (0x400, 0x401, [0x415]), (0x403, 0x403, [0x413]), (0x407, 0x407, [0x406]),
   (0x40C, 0x40C, [0x41A]), (0x40D, 0x40D, [0x418]), (0x40E, 0x40E, [0x423]),
   (0x419, 0x419, [0x418]), (0x439, 0x439, [0x438]), (0x450, 0x451, [0x435]),
   (0x453, 0x453, [0x433]), (0x457, 0x457, [0x456]), (0x45C, 0x45C, [0x43A]),
   (0x45D, 0x45D, [0x438]), (0x45E, 0x45E, [0x443]), (0x476, 0x476, [0x474]),
   (0x477, 0x477, [0x475]), (0x4C1, 0x4C1, [0x416]), (0x4C2, 0x4C2, [0x436]),
   (0x4D0, 0x4D0, [0x410]), (0x4D1, 0x4D1, [0x430]), (0x4D2, 0x4D2, [0x410]),
   (0x4D3, 0x4D3, [0x430]), (0x4D6, 0x4D6, [0x415]), (0x4D7, 0x4D7, [0x435]),
   (0x4DA, 0x4DA, [0x4D8]), (0x4DB, 0x4DB, [0x4D9]), (0x4DC, 0x4DC, [0x416]),
   (0x4DD, 0x4DD, [0x436]), (0x4DE, 0x4DE, [0x417]), (0x4DF, 0x4DF, [0x437]),
   (0x4E2, 0x4E2, [0x418]), (0x4E3, 0x4E3, [0x438]), (0x4E4, 0x4E4, [0x418]),
   (0x4E5, 0x4E5, [0x438]), (0x4E6, 0x4E6, [0x41E]), (0x4E7, 0x4E7, [0x43E]),
   (0x4EA, 0x4EA, [0x4E8]), (0x4EB, 0x4EB, [0x4E9]), (0x4EC, 0x4EC, [0x42D]),
   (0x4ED, 0x4ED, [0x44D]), (0x4EE, 0x4EE, [0x423]), (0x4EF, 0x4EF, [0x443]),
   (0x4F0, 0x4F0, [0x423]), (0x4F1, 0x4F1, [0x443]), (0x4F2, 0x4F2, [0x423]),
   (0x4F3, 0x4F3, [0x443]), (0x4F4, 0x4F4, [0x427]), (0x4F5, 0x4F5, [0x447]),
   (0x4F8, 0x4F8, [0x42B]), (0x4F9, 0x4F9, [0x44B]), (0x622, 0x623, [0x627]),
   (0x624, 0x624, [0x648]), (0x625, 0x625, [0x627]), (0x626, 0x626, [0x64A]),
   (0x6C0, 0x6C0, [0x6D5]), (0x6C2, 0x6C2, [0x6C1]), (0x6D3, 0x6D3, [0x6D2]),
   (0x929, 0x929, [0x928]), (0x931, 0x931, [0x930]), (0x934, 0x934, [0x933]),
   (0x958, 0x958, [0x915]), (0x959, 0x959, [0x916]), (0x95A, 0x95A, [0x917]),
   (0x95B, 0x95B, [0x91C]), (0x95C, 0x95C, [0x921]), (0x95D, 0x95D, [0x922]),
   (0x95E, 0x95E, [0x92B]), (0x95F, 0x95F, [0x92F]), (0x9CB, 0x9CB, [0x9C7, 0x9BE]),
   (0x9CC, 0x9CC, [0x9C7, 0x9D7]), (0x9DC, 0x9DC, [0x9A1]), (0x9DD, 0x9DD, [0x9A2]),
   (0x9DF, 0x9DF, [0x9AF]), (0xA33, 0xA33, [0xA32]), (0xA36, 0xA36, [0xA38]),
   (0xA59, 0xA59, [0xA16]), (0xA5A, 0xA5A, [0xA17]), (0xA5B, 0xA5B, [0xA1C]),
   (0xA5E, 0xA5E, [0xA2B]), (0xB48, 0xB48, [0xB47]), (0xB4B, 0xB4B, [0xB47, 0xB3E]),
   (0xB4C, 0xB4C, [0xB47, 0xB57]), (0xB5C, 0xB5C, [0xB21]), (0xB5D, 0xB5D, [0xB22]),
   (0xB94, 0xB94, [0xB92, 0xBD7]), (0xBCA, 0xBCA, [0xBC6, 0xBBE]), (0xBCB, 0xBCB, [0xBC7, 0xBBE]),
   (0xBCC, 0xBCC, [0xBC6, 0xBD7]), (0xCC0, 0xCC0, [0xCD5]), (0xCC7, 0xCC7, [0xCD5]),
   (0xCC8, 0xCC8, [0xCD6]), (0xCCA, 0xCCA, [0xCC2]), (0xCCB, 0xCCB, [0xCC2, 0xCD5]),
   (0xD4A, 0xD4A, [0xD46, 0xD3E]), (0xD4B, 0xD4B, [0xD47, 0xD3E]), (0xD4C, 0xD4C, [0xD46, 0xD57]),
   (0xDDA, 0xDDA, [0xDD9]), (0xDDC, 0xDDD, [0xDD9, 0xDCF]), (0xDDE, 0xDDE, [0xDD9, 0xDDF]),
   (0xF43, 0xF43, [0xF42]), (0xF4D, 0xF4D, [0xF4C]), (0xF52, 0xF52, [0xF51]),
   (0xF57, 0xF57, [0xF56]), (0xF5C, 0xF5C, [0xF5B]), (0xF69, 0xF69, [0xF40]),
   (0x1026, 0x1026, [0x1025]), (0x1B06, 0x1B06, [0x1B05, 0x1B35]),
   (0x1B08, 0x1B08, [0x1B07, 0x1B35]), (0x1B0A, 0x1B0A, [0x1B09, 0x1B35]),
   (0x1B0C, 0x1B0C, [0x1B0B, 0x1B35]), (0x1B0E, 0x1B0E, [0x1B0D, 0x1B35]),
   (0x1B12, 0x1B12, [0x1B11, 0x1B35]), (0x1B3B, 0x1B3B, [0x1B35]), (0x1B3D, 0x1B3D, [0x1B35]),
   (0x1B40, 0x1B40, [0x1B3E, 0x1B35]), (0x1B41, 0x1B41, [0x1B3F, 0x1B35]),
   (0x1B43, 0x1B43, [0x1B35]), (0x1E00, 0x1E00, [0x41]), (0x1E01, 0x1E01, [0x61]),
   (0x1E02, 0x1E02, [0x42]), (0x1E03, 0x1E03, [0x62]), (0x1E04, 0x1E04, [0x42]),
   (0x1E05, 0x1E05, [0x62]), (0x1E06, 0x1E06, [0x42]), (0x1E07, 0x1E07, [0x62]),
   (0x1E08, 0x1E08, [0x43]), (0x1E09, 0x1E09, [0x63]), (0x1E0A, 0x1E0A, [0x44]),
   (0x1E0B, 0x1E0B, [0x64]), (0x1E0C, 0x1E0C, [0x44]), (0x1E0D, 0x1E0D, [0x64]),
   (0x1E0E, 0x1E0E, [0x44]), (0x1E0F, 0x1E0F, [0x64]), (0x1E10, 0x1E10, [0x44]),
   (0x1E11, 0x1E11, [0x64]), (0x1E12, 0x1E12, [0x44]), (0x1E13, 0x1E13, [0x64]),
   (0x1E14, 0x1E14, [0x45]), (0x1E15, 0x1E15, [0x65]), (0x1E16, 0x1E16, [0x45]),
   (0x1E17, 0x1E17, [0x65]), (0x1E18, 0x1E18, [0x45]), (0x1E19, 0x1E19, [0x65]),
   (0x1E1A, 0x1E1A, [0x45]), (0x1E1B, 0x1E1B, [0x65]), (0x1E1C, 0x1E1C, [0x45]),
   (0x1E1D, 0x1E1D, [0x65]), (0x1E1E, 0x1E1E, [0x46]), (0x1E1F, 0x1E1F, [0x66]),
   (0x1E20, 0x1E20, [0x47]), (0x1E21, 0x1E21, [0x67]), (0x1E22, 0x1E22, [0x48]),
   (0x1E23, 0x1E23, [0x68]), (0x1E24, 0x1E24, [0x48]), (0x1E25, 0x1E25, [0x68]),
   (0x1E26, 0x1E26, [0x48]), (0x1E27, 0x1E27, [0x68]), (0x1E28, 0x1E28, [0x48]),
   (0x1E29, 0x1E29, [0x68]), (0x1E2A, 0x1E2A, [0x48]), (0x1E2B, 0x1E2B, [0x68]),
   (0x1E2C, 0x1E2C, [0x49]), (0x1E2D, 0x1E2D, [0x69]), (0x1E2E, 0x1E2E, [0x49]),
   (0x1E2F, 0x1E2F, [0x69]), (0x1E30, 0x1E30, [0x4B]), (0x1E31, 0x1E31, [0x6B]),
   (0x1E32, 0x1E32, [0x4B]), (0x1E33, 0x1E33, [0x6B]), (0x1E34, 0x1E34, [0x4B]),
   (0x1E35, 0x1E35, [0x6B]), (0x1E36, 0x1E36, [0x4C]), (0x1E37, 0x1E37, [0x6C]),
   (0x1E38, 0x1E38, [0x4C]), (0x1E39, 0x1E39, [0x6C]), (0x1E3A, 0x1E3A, [0x4C]),
   (0x1E3B, 0x1E3B, [0x6C]), (0x1E3C, 0x1E3C, [0x4C]), (0x1E3D, 0x1E3D, [0x6C]),
   (0x1E3E, 0x1E3E, [0x4D]), (0x1E3F, 0x1E3F, [0x6D]), (0x1E40, 0x1E40, [0x4D]),
   (0x1E41, 0x1E41, [0x6D]), (0x1E42, 0x1E42, [0x4D]), (0x1E43, 0x1E43, [0x6D]),
   (0x1E44, 0x1E44, [0x4E]), (0x1E45, 0x1E45, [0x6E]), (0x1E46, 0x1E46, [0x4E]),
   (0x1E47, 0x1E47, [0x6E]), (0x1E48, 0x1E48, [0x4E]), (0x1E49, 0x1E49, [0x6E]),
   (0x1E4A, 0x1E4A, [0x4E]), (0x1E4B, 0x1E4B, [0x6E]), (0x1E4C, 0x1E4C, [0x4F]),
   (0x1E4D, 0x1E4D, [0x6F]), (0x1E4E, 0x1E4E, [0x4F]), (0x1E4F, 0x1E4F, [0x6F]),
   (0x1E50, 0x1E50, [0x4F]), (0x1E51, 0x1E51, [0x6F]), (0x1E52, 0x1E52, [0x4F]),
   (0x1E53, 0x1E53, [0x6F]), (0x1E54, 0x1E54, [0x50]), (0x1E55, 0x1E55, [0x70]),
   (0x1E56, 0x1E56, [0x50]), (0x1E57, 0x1E57, [0x70]), (0x1E58, 0x1E58, [0x52]),
   (0x1E59, 0x1E59, [0x72]), (0x1E5A, 0x1E5A, [0x52]), (0x1E5B, 0x1E5B, [0x72]),
   (0x1E5C, 0x1E5C, [0x52]), (0x1E5D, 0x1E5D, [0x72]), (0x1E5E, 0x1E5E, [0x52]),
   (0x1E5F, 0x1E5F, [0x72]), (0x1E60, 0x1E60, [0x53]), (0x1E61, 0x1E61, [0x73]),
   (0x1E62, 0x1E62, [0x53]), (0x1E63, 0x1E63, [0x73]), (0x1E64, 0x1E64, [0x53]),
   (0x1E65, 0x1E65, [0x73]), (0x1E66, 0x1E66, [0x53]), (0x1E67, 0x1E67, [0x73]),
   (0x1E68, 0x1E68, [0x53]), (0x1E69, 0x1E69, [0x73]), (0x1E6A, 0x1E6A, [0x54]),
   (0x1E6B, 0x1E6B, [0x74]), (0x1E6C, 0x1E6C, [0x54]), (0x1E6D, 0x1E6D, [0x74]),
   (0x1E6E, 0x1E6E, [0x54]), (0x1E6F, 0x1E6F, [0x74]), (0x1E70, 0x1E70, [0x54]),
   (0x1E71, 0x1E71, [0x74]), (0x1E72, 0x1E72, [0x55]), (0x1E73, 0x1E73, [0x75]),
   (0x1E74, 0x1E74, [0x55]), (0x1E75, 0x1E75, [0x75]), (0x1E76, 0x1E76, [0x55]),
   (0x1E77, 0x1E77, [0x75]), (0x1E78, 0x1E78, [0x55]), (0x1E79, 0x1E79, [0x75]),
   (0x1E7A, 0x1E7A, [0x55]), (0x1E7B, 0x1E7B, [0x75]), (0x1E7C, 0x1E7C, [0x56]),
   (0x1E7D, 0x1E7D, [0x76]), (0x1E7E, 0x1E7E, [0x56]), (0x1E7F, 0x1E7F, [0x76]),
   (0x1E80, 0x1E80, [0x57]), (0x1E81, 0x1E81, [0x77]), (0x1E82, 0x1E82, [0x57]),
   (0x1E83, 0x1E83, [0x77]), (0x1E84, 0x1E84, [0x57]), (0x1E85, 0x1E85, [0x77]),
   (0x1E86, 0x1E86, [0x57]), (0x1E87, 0x1E87, [0x77]), (0x1E88, 0x1E88, [0x57]),
   (0x1E89, 0x1E89, [0x77]), (0x1E8A, 0x1E8A, [0x58]), (0x1E8B, 0x1E8B, [0x78]),
   (0x1E8C, 0x1E8C, [0x58]), (0x1E8D, 0x1E8D, [0x78]), (0x1E8E, 0x1E8E, [0x59]),
   (0x1E8F, 0x1E8F, [0x79]), (0x1E90, 0x1E90, [0x5A]), (0x1E91, 0x1E91, [0x7A]),
   (0x1E92, 0x1E92, [0x5A]), (0x1E93, 0x1E93, [0x7A]), (0x1E94, 0x1E94, [0x5A]),
   (0x1E95, 0x1E95, [0x7A]), (0x1E96, 0x1E96, [0x68]), (0x1E97, 0x1E97, [0x74]),
   (0x1E98, 0x1E98, [0x77]), (0x1E99, 0x1E99, [0x79]), (0x1E9B, 0x1E9B, [0x17F]),
   (0x1EA0, 0x1EA0, [0x41]), (0x1EA1, 0x1EA1, [0x61]), (0x1EA2, 0x1EA2, [0x41]),
   (0x1EA3, 0x1EA3, [0x61]), (0x1EA4, 0x1EA4, [0x41]), (0x1EA5, 0x1EA5, [0x61]),
   (0x1EA6, 0x1EA6, [0x41]), (0x1EA7, 0x1EA7, [0x61]), (0x1EA8, 0x1EA8, [0x41]),
   (0x1EA9, 0x1EA9, [0x61]), (0x1EAA, 0x1EAA, [0x41]), (0x1EAB, 0x1EAB, [0x61]),
   (0x1EAC, 0x1EAC, [0x41]), (0x1EAD, 0x1EAD, [0x61]), (0x1EAE, 0x1EAE, [0x41]),
   (0x1EAF, 0x1EAF, [0x61]), (0x1EB0, 0x1EB0, [0x41]), (0x1EB1, 0x1EB1, [0x61]),
   (0x1EB2, 0x1EB2, [0x41]), (0x1EB3, 0x1EB3, [0x61]), (0x1EB4, 0x1EB4, [0x41]),
   (0x1EB5, 0x1EB5, [0x61]), (0x1EB6, 0x1EB6, [0x41]), (0x1EB7, 0x1EB7, [0x61]),
   (0x1EB8, 0x1EB8, [0x45]), (0x1EB9, 0x1EB9, [0x65]), (0x1EBA, 0x1EBA, [0x45]),
   (0x1EBB, 0x1EBB, [0x65]), (0x1EBC, 0x1EBC, [0x45]), (0x1EBD, 0x1EBD, [0x65]),
   (0x1EBE, 0x1EBE, [0x45]), (0x1EBF, 0x1EBF, [0x65]), (0x1EC0, 0x1EC0, [0x45]),
   (0x1EC1, 0x1EC1, [0x65]), (0x1EC2, 0x1EC2, [0x45]), (0x1EC3, 0x1EC3, [0x65]),
   (0x1EC4, 0x1EC4, [0x45]), (0x1EC5, 0x1EC5, [0x65]), (0x1EC6, 0x1EC6, [0x45]),
   (0x1EC7, 0x1EC7, [0x65]), (0x1EC8, 0x1EC8, [0x49]), (0x1EC9, 0x1EC9, [0x69]),
   (0x1ECA, 0x1ECA, [0x49]), (0x1ECB, 0x1ECB, [0x69]), (0x1ECC, 0x1ECC, [0x4F]),
   (0x1ECD, 0x1ECD, [0x6F]), (0x1ECE, 0x1ECE, [0x4F]), (0x1ECF, 0x1ECF, [0x6F]),
   (0x1ED0, 0x1ED0, [0x4F]), (0x1ED1, 0x1ED1, [0x6F]), (0x1ED2, 0x1ED2, [0x4F]),
   (0x1ED3, 0x1ED3, [0x6F]), (0x1ED4, 0x1ED4, [0x4F]), (0x1ED5, 0x1ED5, [0x6F]),
   (0x1ED6, 0x1ED6, [0x4F]), (0x1ED7, 0x1ED7, [0x6F]), (0x1ED8, 0x1ED8, [0x4F]),
   (0x1ED9, 0x1ED9, [0x6F]), (0x1EDA, 0x1EDA, [0x4F]), (0x1EDB, 0x1EDB, [0x6F]),
   (0x1EDC, 0x1EDC, [0x4F]), (0x1EDD, 0x1EDD, [0x6F]), (0x1EDE, 0x1EDE, [0x4F]),
   (0x1EDF, 0x1EDF, [0x6F]), (0x1EE0, 0x1EE0, [0x4F]), (0x1EE1, 0x1EE1, [0x6F]),
   (0x1EE2, 0x1EE2, [0x4F]), (0x1EE3, 0x1EE3, [0x6F]), (0x1EE4, 0x1EE4, [0x55]),
   (0x1EE5, 0x1EE5, [0x75]), (0x1EE6, 0x1EE6, [0x55]), (0x1EE7, 0x1EE7, [0x75]),
   (0x1EE8, 0x1EE8, [0x55]), (0x1EE9, 0x1EE9, [0x75]), (0x1EEA, 0x1EEA, [0x55]),
   (0x1EEB, 0x1EEB, [0x75]), (0x1EEC, 0x1EEC, [0x55]), (0x1EED, 0x1EED, [0x75]),
   (0x1EEE, 0x1EEE, [0x55]), (0x1EEF, 0x1EEF, [0x75]), (0x1EF0, 0x1EF0, [0x55]),
   (0x1EF1, 0x1EF1, [0x75]), (0x1EF2, 0x1EF2, [0x59]), (0x1EF3, 0x1EF3, [0x79]),
   (0x1EF4, 0x1EF4, [0x59]), (0x1EF5, 0x1EF5, [0x79]), (0x1EF6, 0x1EF6, [0x59]),
   (0x1EF7, 0x1EF7, [0x79]), (0x1EF8, 0x1EF8, [0x59]), (0x1EF9, 0x1EF9, [0x79]),
   (0x1F00, 0x1F07, [0x3B1]), (0x1F08, 0x1F0F, [0x391]), (0x1F10, 0x1F15, [0x3B5]),
   (0x1F18, 0x1F1D, [0x395]), (0x1F20, 0x1F27, [0x3B7]), (0x1F28, 0x1F2F, [0x397]),
   (0x1F30, 0x1F37, [0x3B9]), (0x1F38, 0x1F3F, [0x399]), (0x1F40, 0x1F45, [0x3BF]),
   (0x1F48, 0x1F4D, [0x39F]), (0x1F50, 0x1F57, [0x3C5]), (0x1F59, 0x1F59, [0x3A5]),
   (0x1F5B, 0x1F5B, [0x3A5]), (0x1F5D, 0x1F5D, [0x3A5]), (0x1F5F, 0x1F5F, [0x3A5]),
   (0x1F60, 0x1F67, [0x3C9]), (0x1F68, 0x1F6F, [0x3A9]), (0x1F70, 0x1F71, [0x3B1]),
   (0x1F72, 0x1F73, [0x3B5]), (0x1F74, 0x1F75, [0x3B7]), (0x1F76, 0x1F77, [0x3B9]),
   (0x1F78, 0x1F79, [0x3BF]), (0x1F7A, 0x1F7B, [0x3C5]), (0x1F7C, 0x1F7D, [0x3C9]),
   (0x1F80, 0x1F87, [0x3B1]), (0x1F88, 0x1F8F, [0x391]), (0x1F90, 0x1F97, [0x3B7]),
   (0x1F98, 0x1F9F, [0x397]), (0x1FA0, 0x1FA7, [0x3C9]), (0x1FA8, 0x1FAF, [0x3A9]),
   (0x1FB0, 0x1FB4, [0x3B1]), (0x1FB6, 0x1FB7, [0x3B1]), (0x1FB8, 0x1FBC, [0x391]),
   (0x1FBE, 0x1FBE, [0x3B9]), (0x1FC1, 0x1FC1, [0xA8]), (0x1FC2, 0x1FC4, [0x3B7]),
   (0x1FC6, 0x1FC7, [0x3B7]), (0x1FC8, 0x1FC9, [0x395]), (0x1FCA, 0x1FCC, [0x397]),
   (0x1FCD, 0x1FCF, [0x1FBF]), (0x1FD0, 0x1FD3, [0x3B9]), (0x1FD6, 0x1FD7, [0x3B9]),
   (0x1FD8, 0x1FDB, [0x399]), (0x1FDD, 0x1FDF, [0x1FFE]), (0x1FE0, 0x1FE3, [0x3C5]),
   (0x1FE4, 0x1FE5, [0x3C1]), (0x1FE6, 0x1FE7, [0x3C5]), (0x1FE8, 0x1FEB, [0x3A5]),
   (0x1FEC, 0x1FEC, [0x3A1]), (0x1FED, 0x1FEE, [0xA8]), (0x1FEF, 0x1FEF, [0x60]),
   (0x1FF2, 0x1FF4, [0x3C9]), (0x1FF6, 0x1FF7, [0x3C9]), (0x1FF8, 0x1FF9, [0x39F]),
   (0x1FFA, 0x1FFC, [0x3A9]), (0x1FFD, 0x1FFD, [0xB4]), (0x2000, 0x2000, [0x2002]),
   (0x2001, 0x2001, [0x2003]), (0x2126, 0x2126, [0x3A9]), (0x212A, 0x212A, [0x4B]),
   (0x212B, 0x212B, [0x41]), (0x219A, 0x219A, [0x2190]), (0x219B, 0x219B, [0x2192]),
   (0x21AE, 0x21AE, [0x2194]), (0x21CD, 0x21CD, [0x21D0]), (0x21CE, 0x21CE, [0x21D4]),
   (0x21CF, 0x21CF, [0x21D2]), (0x2204, 0x2204, [0x2203]), (0x2209, 0x2209, [0x2208]),
   (0x220C, 0x220C, [0x220B]), (0x2224, 0x2224, [0x2223]), (0x2226, 0x2226, [0x2225]),
   (0x2241, 0x2241, [0x223C]), (0x2244, 0x2244, [0x2243]), (0x2247, 0x2247, [0x2245]),
   (0x2249, 0x2249, [0x2248]), (0x2260, 0x2260, [0x3D]), (0x2262, 0x2262, [0x2261]),
   (0x226D, 0x226D, [0x224D]), (0x226E, 0x226E, [0x3C]), (0x226F, 0x226F, [0x3E]),
   (0x2270, 0x2270, [0x2264]), (0x2271, 0x2271, [0x2265]), (0x2274, 0x2274, [0x2272]),
   (0x2275, 0x2275, [0x2273]), (0x2278, 0x2278, [0x2276]), (0x2279, 0x2279, [0x2277]),
   (0x2280, 0x2280, [0x227A]), (0x2281, 0x2281, [0x227B]), (0x2284, 0x2284, [0x2282]),
   (0x2285, 0x2285, [0x2283]), (0x2288, 0x2288, [0x2286]), (0x2289, 0x2289, [0x2287]),
   (0x22AC, 0x22AC, [0x22A2]), (0x22AD, 0x22AD, [0x22A8]), (0x22AE, 0x22AE, [0x22A9]),
   (0x22AF, 0x22AF, [0x22AB]), (0x22E0, 0x22E0, [0x227C]), (0x22E1, 0x22E1, [0x227D]),
   (0x22E2, 0x22E2, [0x2291]), (0x22E3, 0x22E3, [0x2292]), (0x22EA, 0x22EA, [0x22B2]),
   (0x22EB, 0x22EB, [0x22B3]), (0x22EC, 0x22EC, [0x22B4]), (0x22ED, 0x22ED, [0x22B5]),
   (0x2329, 0x2329, [0x3008]), (0x232A, 0x232A, [0x3009]), (0x2ADC, 0x2ADC, [0x2ADD]),
   (0x304C, 0x304C, [0x304B]), (0x304E, 0x304E, [0x304D]), (0x3050, 0x3050, [0x304F]),
   (0x3052, 0x3052, [0x3051]), (0x3054, 0x3054, [0x3053]), (0x3056, 0x3056, [0x3055]),
   (0x3058, 0x3058, [0x3057]), (0x305A, 0x305A, [0x3059]), (0x305C, 0x305C, [0x305B]),
   (0x305E, 0x305E, [0x305D]), (0x3060, 0x3060, [0x305F]), (0x3062, 0x3062, [0x3061]),
   (0x3065, 0x3065, [0x3064]), (0x3067, 0x3067, [0x3066]), (0x3069, 0x3069, [0x3068]),
   (0x3070, 0x3071, [0x306F]), (0x3073, 0x3074, [0x3072]), (0x3076, 0x3077, [0x3075]),
   (0x3079, 0x307A, [0x3078]), (0x307C, 0x307D, [0x307B]), (0x3094, 0x3094, [0x3046]),
   (0x309E, 0x309E, [0x309D]), (0x30AC, 0x30AC, [0x30AB]), (0x30AE, 0x30AE, [0x30AD]),
   (0x30B0, 0x30B0, [0x30AF]), (0x30B2, 0x30B2, [0x30B1]), (0x30B4, 0x30B4, [0x30B3]),
   (0x30B6, 0x30B6, [0x30B5]), (0x30B8, 0x30B8, [0x30B7]), (0x30BA, 0x30BA, [0x30B9]),
   (0x30BC, 0x30BC, [0x30BB]), (0x30BE, 0x30BE, [0x30BD]), (0x30C0, 0x30C0, [0x30BF]),
   (0x30C2, 0x30C2, [0x30C1]), (0x30C5, 0x30C5, [0x30C4]), (0x30C7, 0x30C7, [0x30C6]),
   (0x30C9, 0x30C9, [0x30C8]), (0x30D0, 0x30D1, [0x30CF]), (0x30D3, 0x30D4, [0x30D2]),
   (0x30D6, 0x30D7, [0x30D5]), (0x30D9, 0x30DA, [0x30D8]), (0x30DC, 0x30DD, [0x30DB]),
   (0x30F4, 0x30F4, [0x30A6]), (0x30F7, 0x30F7, [0x30EF]), (0x30F8, 0x30F8, [0x30F0]),
   (0x30F9, 0x30F9, [0x30F1]), (0x30FA, 0x30FA, [0x30F2]), (0x30FE, 0x30FE, [0x30FD]),
   (0xFB1D, 0xFB1D, [0x5D9]), (0xFB1F, 0xFB1F, [0x5F2]), (0xFB2A, 0xFB2D, [0x5E9]),
   (0xFB2E, 0xFB30, [0x5D0]), (0xFB31, 0xFB31, [0x5D1]), (0xFB32, 0xFB32, [0x5D2]),
   (0xFB33, 0xFB33, [0x5D3]), (0xFB34, 0xFB34, [0x5D4]), (0xFB35, 0xFB35, [0x5D5]),
   (0xFB36, 0xFB36, [0x5D6]), (0xFB38, 0xFB38, [0x5D8]), (0xFB39, 0xFB39, [0x5D9]),
   (0xFB3A, 0xFB3A, [0x5DA]), (0xFB3B, 0xFB3B, [0x5DB]), (0xFB3C, 0xFB3C, [0x5DC]),
   (0xFB3E, 0xFB3E, [0x5DE]), (0xFB40, 0xFB40, [0x5E0]), (0xFB41, 0xFB41, [0x5E1]),
   (0xFB43, 0xFB43, [0x5E3]), (0xFB44, 0xFB44, [0x5E4]), (0xFB46, 0xFB46, [0x5E6]),
   (0xFB47, 0xFB47, [0x5E7]), (0xFB48, 0xFB48, [0x5E8]), (0xFB49, 0xFB49, [0x5E9]),
   (0xFB4A, 0xFB4A, [0x5EA]), (0xFB4B, 0xFB4B, [0x5D5]), (0xFB4C, 0xFB4C, [0x5D1]),
   (0xFB4D, 0xFB4D, [0x5DB]), (0xFB4E, 0xFB4E, [0x5E4]), (0x1109A, 0x1109A, [0x11099]),
   (0x1109C, 0x1109C, [0x1109B]), (0x110AB, 0x110AB, [0x110A5]),
   (0x1134B, 0x1134B, [0x11347, 0x1133E]), (0x1134C, 0x1134C, [0x11347, 0x11357]),
   (0x114BB, 0x114BB, [0x114B9]), (0x114BC, 0x114BC, [0x114B9, 0x114B0]),
   (0x114BE, 0x114BE, [0x114B9, 0x114BD]), (0x115BA, 0x115BA, [0x115B8, 0x115AF]),
   (0x115BB, 0x115BB, [0x115B9, 0x115AF]), (0x11938, 0x11938, [0x11935, 0x11930]),
   (0x1D15E, 0x1D15E, [0x1D157, 0x1D165]), (0x1D15F, 0x1D15F, [0x1D158, 0x1D165]),
   (0x1D160, 0x1D160, [0x1D158, 0x1D165, 0x1D16E]),
   (0x1D161, 0x1D161, [0x1D158, 0x1D165, 0x1D16F]),
   (0x1D162, 0x1D162, [0x1D158, 0x1D165, 0x1D170]),
   (0x1D163, 0x1D163, [0x1D158, 0x1D165, 0x1D171]),
   (0x1D164, 0x1D164, [0x1D158, 0x1D165, 0x1D172]), (0x1D1BB, 0x1D1BB, [0x1D1B9, 0x1D165]),
   (0x1D1BC, 0x1D1BC, [0x1D1BA, 0x1D165]), (0x1D1BD, 0x1D1BD, [0x1D1B9, 0x1D165, 0x1D16E]),
   (0x1D1BE, 0x1D1BE, [0x1D1BA, 0x1D165, 0x1D16E]),
   (0x1D1BF, 0x1D1BF, [0x1D1B9, 0x1D165, 0x1D16F]),
   (0x1D1C0, 0x1D1C0, [0x1D1BA, 0x1D165, 0x1D16F])]

/-- The ideographs that stand for another one: a first code point, and what it and its successors
stand for. -/
def ideographRuns : List (Nat × String) :=
  [(0xF900, "豈更車賈滑串句龜龜契金喇奈懶癩羅蘿螺裸邏樂洛烙珞落酪駱亂卵欄爛蘭鸞嵐濫藍"),
   (0xF924, "襤拉臘蠟廊朗浪狼郎來冷勞擄櫓爐盧老蘆虜路露魯鷺碌祿綠菉錄鹿論壟弄籠聾牢磊"),
   (0xF948, "賂雷壘屢樓淚漏累縷陋勒肋凜凌稜綾菱陵讀拏樂諾丹寧怒率異北磻便復不泌數索參"),
   (0xF96C, "塞省葉說殺辰沈拾若掠略亮兩凉梁糧良諒量勵呂女廬旅濾礪閭驪麗黎力曆歷轢年憐"),
   (0xF990, "戀撚漣煉璉秊練聯輦蓮連鍊列劣咽烈裂說廉念捻殮簾獵令囹寧嶺怜玲瑩羚聆鈴零靈"),
   (0xF9B4, "領例禮醴隸惡了僚寮尿料樂燎療蓼遼龍暈阮劉杻柳流溜琉留硫紐類六戮陸倫崙淪輪"),
   (0xF9D8, "律慄栗率隆利吏履易李梨泥理痢罹裏裡里離匿溺吝燐璘藺隣鱗麟林淋臨立笠粒狀炙"),
   (0xF9FC, "識什茶刺切度拓糖宅洞暴輻行降見廓兀嗀"),
   (0xFA10, "塚"),
   (0xFA12, "晴"),
   (0xFA15, "凞猪益礼神祥福靖精羽"),
   (0xFA20, "蘒"),
   (0xFA22, "諸"),
   (0xFA25, "逸都"),
   (0xFA2A, "飯飼館鶴郞隷侮僧免勉勤卑喝嘆器塀墨層屮悔慨憎懲敏既暑梅海渚漢煮爫琢碑社祉"),
   (0xFA4E, "祈祐祖祝禍禎穀突節練縉繁署者臭艹艹著褐視謁謹賓贈辶逸難響頻恵𤋮舘"),
   (0xFA70, "並况全侀充冀勇勺喝啕喙嗢塚墳奄奔婢嬨廒廙彩徭惘慎愈憎慠懲戴揄搜摒敖晴朗望"),
   (0xFA94, "杖歹殺流滛滋漢瀞煮瞧爵犯猪瑱甆画瘝瘟益盛直睊着磌窱節类絛練缾者荒華蝹襁覆"),
   (0xFAB8, "視調諸請謁諾諭謹變贈輸遲醙鉶陼難靖韛響頋頻鬒龜𢡊𢡄𣏕㮝䀘䀹𥉉𥳐𧻓齃龎"),
   (0x2F800, "丽丸乁𠄢你侮侻倂偺備僧像㒞𠘺免兔兤具𠔜㒹內再𠕋冗冤仌冬况𩇟凵刃㓟刻剆割剷"),
   (0x2F824, "㔕勇勉勤勺包匆北卉卑博即卽卿卿卿𠨬灰及叟𠭣叫叱吆咞吸呈周咢哶唐啓啣善善喙"),
   (0x2F848, "喫喳嗂圖嘆圗噑噴切壮城埴堍型堲報墬𡓤売壷夆多夢奢𡚨𡛪姬娛娧姘婦㛮㛼嬈嬾嬾"),
   (0x2F86C, "𡧈寃寘寧寳𡬘寿将当尢㞁屠屮峀岍𡷤嵃𡷦嵮嵫嵼巡巢㠯巽帨帽幩㡢𢆃㡼庰庳庶廊𪎒"),
   (0x2F890, "廾𢌱𢌱舁弢弢㣇𣊸𦇚形彫㣣徚忍志忹悁㤺㤜悔𢛔惇慈慌慎慌慺憎憲憤憯懞懲懶成戛"),
   (0x2F8B4, "扝抱拔捐𢬌挽拼捨掃揤𢯱搢揅掩㨮摩摾撝摷㩬敏敬𣀊旣書晉㬙暑㬈㫤冒冕最暜肭䏙"),
   (0x2F8D8, "朗望朡杞杓𣏃㭉柺枅桒梅𣑭梎栟椔㮝楂榣槪檨𣚣櫛㰘次𣢧歔㱎歲殟殺殻𣪍𡴋𣫺汎𣲼"),
   (0x2F8FC, "沿泍汧洖派海流浩浸涅𣴞洴港湮㴳滋滇𣻑淹潮𣽞𣾎濆瀹瀞瀛㶖灊災灷炭𠔥煅𤉣熜𤎫"),
   (0x2F920, "爨爵牐𤘈犀犕𤜵𤠔獺王㺬玥㺸㺸瑇瑜瑱璅瓊㼛甤𤰶甾𤲒異𢆟瘐𤾡𤾸𥁄㿼䀈直𥃳𥃲𥄙"),
   (0x2F944, "𥄳眞真真睊䀹瞋䁆䂖𥐝硎碌磌䃣𥘦祖𥚚𥛅福秫䄯穀穊穏𥥼𥪧𥪧竮䈂𥮫篆築䈧𥲀糒䊠"),
   (0x2F968, "糨糣紀𥾆絣䌁緇縂繅䌴𦈨𦉇䍙𦋙罺𦌾羕翺者𦓚𦔣聠𦖨聰𣍟䏕育脃䐋脾媵𦞧𦞵𣎓𣎜舁"),
   (0x2F98C, "舄辞䑫芑芋芝劳花芳芽苦𦬼若茝荣莭茣莽菧著荓菊菌菜𦰶𦵫𦳕䔫蓱蓳蔖𧏊蕤𦼬䕝䕡"),
   (0x2F9B0, "𦾱𧃒䕫虐虜虧虩蚩蚈蜎蛢蝹蜨蝫螆䗗蟡蠁䗹衠衣𧙧裗裞䘵裺㒻𧢮𧥦䚾䛇誠諭變豕𧲨"),
   (0x2F9D4, "貫賁贛起𧼯𠠄跋趼跰𠣞軔輸𨗒𨗭邔郱鄑𨜮鄛鈸鋗鋘鉼鏹鐕𨯺開䦕閷𨵷䧦雃嶲霣𩅅𩈚"),
   (0x2F9F8, "䩮䩶韠𩐊䪲𩒖頋頋頩𩖶飢䬳餩馧駂駾䯎𩬰鬒鱀鳽䳎䳭鵧𪃎䳸𪄅𪈎𪊑麻䵖黹黾鼅鼏鼖"),
   (0x2FA1C, "鼻𪘀")]

/-- The letters of a Hangul syllable: a lead, a vowel and, unless it is open, a tail. -/
def hangulLetters (syllable : Nat) : List Nat :=
  let index := syllable - 0xAC00
  let lead := 0x1100 + index / 588
  let vowel := 0x1161 + index % 588 / 28
  if index % 28 = 0 then [lead, vowel] else [lead, vowel, 0x11A7 + index % 28]

/-- What a character is without its accents. A character that does not decompose is itself. -/
def plainLetters (c : Char) : Text :=
  let n := c.toNat
  if n < 0xC0 then [c]
  else if 0xAC00 ≤ n ∧ n ≤ 0xD7A3 then (hangulLetters n).map Char.ofNat
  else match plainRuns.find? fun (lo, hi, _) => lo ≤ n && n ≤ hi with
    | some (_, _, letters) => letters.map Char.ofNat
    | none =>
      match ideographRuns.find? fun (lo, targets) => lo ≤ n && n < lo + targets.length with
      | some (lo, targets) => (targets.toList.drop (n - lo)).take 1
      | none => [c]

end Pseudocode.Text
