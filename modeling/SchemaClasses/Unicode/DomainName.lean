import SchemaClasses.Unicode.CodeSet

/-! What becomes of characters in the names of network domains. -/

namespace SchemaClasses

namespace Unicode

/-- Characters that are left out. -/
def ignoredInNames : CodeSet := .ofWords [
  "AD 34F 180B-180D 180F 200B 2060 2064 FE00-FE0F FEFF 1BCA0-1BCA3 E0100-E01EF"]

/-- Characters that are refused, beside controls and code points that have no character or are for
private use; among them are those that stand for others which are refused. -/
def refusedInNames : CodeSet := .ofWords [
  "A0 A8 AF B4 B8 2D8-2DD 37A 384-385 4C0 600-605 61C 6DD 70F 890-891 8E2 10A0-10C5 115F-1160",
  "1680 17B4-17B5 1806 180E 1FBD 1FBF-1FC1 1FCD-1FCF 1FDD-1FDF 1FED-1FEE 1FFD-1FFE 2000-200A",
  "200E-200F 2017 2024-2026 2028-202F 203E 2047-2049 205F 2061-2063 2066-206F 2100-2101",
  "2105-2106 2132 2183 2488-249B 2A74 2FF0-2FFB 3000 309B-309C 3164 33C2 33C7 33D8 FC5E-FC63",
  "FDFA-FDFB FE12-FE13 FE16 FE19 FE30 FE47-FE4C FE52 FE55-FE56 FE5F FE64-FE65 FE68 FE6A-FE6B",
  "FE70-FE7E/2 FF03 FF05 FF0F FF1A FF1C FF1E-FF20 FF3B-FF3E FF5C FFA0 FFE3 FFF9-FFFD 110BD",
  "110CD 13430-1343F 1D173-1D17A 1F100 2F868 2F874 2F91F 2F95F 2F9BF E0001 E0020-E007F"]

/-- Characters in whose place others are put. -/
def replacedInNames : CodeSet := .ofWords [
  "AA B2-B3 B5 B9-BA BC-BE C0-D6 D8-DE 100-130/2 132-134 136 139-13D/2 13F-141 143-147/2",
  "149-14A 14C-176/2 178-179 17B-17F/2 181-182 184 186-187 189-18B 18E-191 193-194 196-198",
  "19C-19D 19F-1A0 1A2 1A4 1A6-1A7 1A9 1AC 1AE-1AF 1B1-1B3 1B5 1B7-1B8 1BC 1C4-1CD 1CF-1DB/2",
  "1DE-1EE/2 1F1-1F4 1F6-1F8 1FA-232/2 23A-23B 23D-23E 241 243-246 248-24E/2 2B0-2B8 2E0-2E4",
  "300-304 306-30A 30C 30F 311 323 325 328 340-341 343-345 370-376/2 37E-37F 386-38A 38C",
  "38E-38F 391-3A1 3A3-3AB 3CF-3D6 3D8-3EE/2 3F0-3F2 3F4-3F5 3F7 3F9-3FA 3FD-42F 460-480/2",
  "48A-4BE/2 4C1-4CD/2 4D0-52E/2 531-556 587 675-678 958-95F 9DC-9DD 9DF A33 A36 A59-A5B A5E",
  "B5C-B5D E33 EB3 EDC-EDD F0C F43 F4D F52 F57 F5C F69 F73 F75-F79 F81 F93 F9D FA2 FA7 FAC FB9",
  "10C7 10CD 10FC 13F8-13FD 1C80-1C88 1C90-1CBA 1CBD-1CBF 1D2C-1D2E 1D30-1D3A 1D3C-1D4D",
  "1D4F-1D6A 1D78 1D9B-1DBF 1E00-1E94/2 1E9A-1E9B 1E9E-1EFE/2 1F08-1F0F 1F18-1F1D 1F28-1F2F",
  "1F38-1F3F 1F48-1F4D 1F59-1F5F/2 1F68-1F6F 1F71-1F7D/2 1F80-1FAF 1FB2-1FB4 1FB7-1FBC 1FBE",
  "1FC2-1FC4 1FC7-1FCC 1FD3 1FD8-1FDB 1FE3 1FE8-1FEC 1FEF 1FF2-1FF4 1FF7-1FFC 2011 2033-2034",
  "2036-2037 203C 2057 2070-2071 2074-208E 2090-209C 20A8 2102-2103 2107 2109-2113 2115-2116",
  "2119-211D 2120-2122 2124-2128/2 212A-212D 212F-2131 2133-2139 213B-2140 2145-2149 2150-217F",
  "2189 222C-222D 222F-2230 2329-232A 2460-2487 249C-24EA 2A0C 2A75-2A76 2ADC 2C00-2C2F 2C60",
  "2C62-2C64 2C67-2C6B/2 2C6D-2C70 2C72 2C75 2C7C-2C80 2C82-2CE2/2 2CEB 2CED 2CF2 2D6F 2E9F",
  "2EF3 2F00-2FD5 3002 3036 3038-303A 309F 30FF 3131-3163 3165-318E 3192-319F 3200-321E",
  "3220-3247 3250-327E 3280-33C1 33C3-33C6 33C8-33D7 33D9-33FF A640-A66C/2 A680-A69A/2",
  "A69C-A69D A722-A72E/2 A732-A770/2 A779 A77B A77D-A77E A780-A786/2 A78B A78D A790 A792",
  "A796-A7A8/2 A7AA-A7AE A7B0-A7B4 A7B6-A7C2/2 A7C4-A7C7 A7C9 A7D0 A7D6 A7D8 A7F2-A7F5",
  "A7F8-A7F9 AB5C-AB5F AB69 AB70-ABBF F900-FA0D FA10 FA12 FA15-FA1E FA20 FA22 FA25-FA26",
  "FA2A-FA6D FA70-FAD9 FB00-FB06 FB13-FB17 FB1D FB1F-FB36 FB38-FB3C FB3E FB40-FB41 FB43-FB44",
  "FB46-FBB1 FBD3-FC5D FC64-FD3D FD50-FD8F FD92-FDC7 FDF0-FDF9 FDFC FE10-FE11 FE14-FE15",
  "FE17-FE18 FE31-FE44 FE4D-FE51 FE54 FE57-FE5E FE60-FE63 FE66 FE69 FE71 FE77-FE7D/2 FE7F-FEFC",
  "FF01-FF02 FF04 FF06-FF0E FF10-FF19 FF1B FF1D FF21-FF3A FF3F-FF5B FF5D-FF9F FFA1-FFBE",
  "FFC2-FFC7 FFCA-FFCF FFD2-FFD7 FFDA-FFDC FFE0-FFE2 FFE4-FFE6 FFE8-FFEE 10400-10427",
  "104B0-104D3 10570-1057A 1057C-1058A 1058C-10592 10594-10595 10781-10785 10787-107B0",
  "107B2-107BA 10C80-10CB2 118A0-118BF 16E40-16E5F 1D15E-1D164 1D1BB-1D1C0 1D400-1D454",
  "1D456-1D49C 1D49E-1D49F 1D4A2 1D4A5-1D4A6 1D4A9-1D4AC 1D4AE-1D4B9 1D4BB 1D4BD-1D4C3",
  "1D4C5-1D505 1D507-1D50A 1D50D-1D514 1D516-1D51C 1D51E-1D539 1D53B-1D53E 1D540-1D544 1D546",
  "1D54A-1D550 1D552-1D6A5 1D6A8-1D7CB 1D7CE-1D7FF 1E030-1E06D 1E900-1E921 1EE00-1EE03",
  "1EE05-1EE1F 1EE21-1EE22 1EE24 1EE27 1EE29-1EE32 1EE34-1EE37 1EE39 1EE3B 1EE42 1EE47-1EE4B/2",
  "1EE4D-1EE4F 1EE51-1EE52 1EE54 1EE57-1EE5F/2 1EE61-1EE62 1EE64 1EE67-1EE6A 1EE6C-1EE72",
  "1EE74-1EE77 1EE79-1EE7C 1EE7E 1EE80-1EE89 1EE8B-1EE9B 1EEA1-1EEA3 1EEA5-1EEA9 1EEAB-1EEBB",
  "1F101-1F10A 1F110-1F12E 1F130-1F14F 1F16A-1F16C 1F190 1F200-1F202 1F210-1F23B 1F240-1F248",
  "1F250-1F251 1FBF0-1FBF9 2F800-2F867 2F869-2F873 2F875-2F91E 2F920-2F95E 2F960-2F9BE",
  "2F9C0-2FA1D"]

/-- Code points in their order, in whose place ASCII characters in their order are put. -/
structure PlainRun where
  first : Nat
  last : Nat
  plain : Nat

/-- The characters in whose place a single ASCII character is put. -/
def plainRuns : List PlainRun := [
  ⟨0xAA, 0xAA, 0x61⟩, ⟨0xB2, 0xB3, 0x32⟩, ⟨0xB9, 0xB9, 0x31⟩, ⟨0xBA, 0xBA, 0x6F⟩,
  ⟨0x17F, 0x17F, 0x73⟩, ⟨0x2B0, 0x2B0, 0x68⟩, ⟨0x2B2, 0x2B2, 0x6A⟩, ⟨0x2B3, 0x2B3, 0x72⟩,
  ⟨0x2B7, 0x2B7, 0x77⟩, ⟨0x2B8, 0x2B8, 0x79⟩, ⟨0x2E1, 0x2E1, 0x6C⟩, ⟨0x2E2, 0x2E2, 0x73⟩,
  ⟨0x2E3, 0x2E3, 0x78⟩, ⟨0x37E, 0x37E, 0x3B⟩, ⟨0x1D2C, 0x1D2C, 0x61⟩, ⟨0x1D2E, 0x1D2E, 0x62⟩,
  ⟨0x1D30, 0x1D31, 0x64⟩, ⟨0x1D33, 0x1D3A, 0x67⟩, ⟨0x1D3C, 0x1D3C, 0x6F⟩, ⟨0x1D3E, 0x1D3E, 0x70⟩,
  ⟨0x1D3F, 0x1D3F, 0x72⟩, ⟨0x1D40, 0x1D41, 0x74⟩, ⟨0x1D42, 0x1D42, 0x77⟩, ⟨0x1D43, 0x1D43, 0x61⟩,
  ⟨0x1D47, 0x1D47, 0x62⟩, ⟨0x1D48, 0x1D49, 0x64⟩, ⟨0x1D4D, 0x1D4D, 0x67⟩, ⟨0x1D4F, 0x1D4F, 0x6B⟩,
  ⟨0x1D50, 0x1D50, 0x6D⟩, ⟨0x1D52, 0x1D52, 0x6F⟩, ⟨0x1D56, 0x1D56, 0x70⟩, ⟨0x1D57, 0x1D58, 0x74⟩,
  ⟨0x1D5B, 0x1D5B, 0x76⟩, ⟨0x1D62, 0x1D62, 0x69⟩, ⟨0x1D63, 0x1D63, 0x72⟩, ⟨0x1D64, 0x1D65, 0x75⟩,
  ⟨0x1D9C, 0x1D9C, 0x63⟩, ⟨0x1DA0, 0x1DA0, 0x66⟩, ⟨0x1DBB, 0x1DBB, 0x7A⟩, ⟨0x1FEF, 0x1FEF, 0x60⟩,
  ⟨0x2070, 0x2070, 0x30⟩, ⟨0x2071, 0x2071, 0x69⟩, ⟨0x2074, 0x2079, 0x34⟩, ⟨0x207A, 0x207A, 0x2B⟩,
  ⟨0x207C, 0x207C, 0x3D⟩, ⟨0x207D, 0x207E, 0x28⟩, ⟨0x207F, 0x207F, 0x6E⟩, ⟨0x2080, 0x2089, 0x30⟩,
  ⟨0x208A, 0x208A, 0x2B⟩, ⟨0x208C, 0x208C, 0x3D⟩, ⟨0x208D, 0x208E, 0x28⟩, ⟨0x2090, 0x2090, 0x61⟩,
  ⟨0x2091, 0x2091, 0x65⟩, ⟨0x2092, 0x2092, 0x6F⟩, ⟨0x2093, 0x2093, 0x78⟩, ⟨0x2095, 0x2095, 0x68⟩,
  ⟨0x2096, 0x2099, 0x6B⟩, ⟨0x209A, 0x209A, 0x70⟩, ⟨0x209B, 0x209C, 0x73⟩, ⟨0x2102, 0x2102, 0x63⟩,
  ⟨0x210A, 0x210B, 0x67⟩, ⟨0x210C, 0x210C, 0x68⟩, ⟨0x210D, 0x210D, 0x68⟩, ⟨0x210E, 0x210E, 0x68⟩,
  ⟨0x2110, 0x2110, 0x69⟩, ⟨0x2111, 0x2111, 0x69⟩, ⟨0x2112, 0x2112, 0x6C⟩, ⟨0x2113, 0x2113, 0x6C⟩,
  ⟨0x2115, 0x2115, 0x6E⟩, ⟨0x2119, 0x211B, 0x70⟩, ⟨0x211C, 0x211C, 0x72⟩, ⟨0x211D, 0x211D, 0x72⟩,
  ⟨0x2124, 0x2124, 0x7A⟩, ⟨0x2128, 0x2128, 0x7A⟩, ⟨0x212A, 0x212A, 0x6B⟩, ⟨0x212C, 0x212D, 0x62⟩,
  ⟨0x212F, 0x212F, 0x65⟩, ⟨0x2130, 0x2131, 0x65⟩, ⟨0x2133, 0x2133, 0x6D⟩, ⟨0x2134, 0x2134, 0x6F⟩,
  ⟨0x2139, 0x2139, 0x69⟩, ⟨0x2145, 0x2145, 0x64⟩, ⟨0x2146, 0x2147, 0x64⟩, ⟨0x2148, 0x2149, 0x69⟩,
  ⟨0x2160, 0x2160, 0x69⟩, ⟨0x2164, 0x2164, 0x76⟩, ⟨0x2169, 0x2169, 0x78⟩, ⟨0x216C, 0x216C, 0x6C⟩,
  ⟨0x216D, 0x216E, 0x63⟩, ⟨0x216F, 0x216F, 0x6D⟩, ⟨0x2170, 0x2170, 0x69⟩, ⟨0x2174, 0x2174, 0x76⟩,
  ⟨0x2179, 0x2179, 0x78⟩, ⟨0x217C, 0x217C, 0x6C⟩, ⟨0x217D, 0x217E, 0x63⟩, ⟨0x217F, 0x217F, 0x6D⟩,
  ⟨0x2460, 0x2468, 0x31⟩, ⟨0x24B6, 0x24CF, 0x61⟩, ⟨0x24D0, 0x24E9, 0x61⟩, ⟨0x24EA, 0x24EA, 0x30⟩,
  ⟨0x2C7C, 0x2C7C, 0x6A⟩, ⟨0x2C7D, 0x2C7D, 0x76⟩, ⟨0x3002, 0x3002, 0x2E⟩, ⟨0xA7F2, 0xA7F2, 0x63⟩,
  ⟨0xA7F3, 0xA7F3, 0x66⟩, ⟨0xA7F4, 0xA7F4, 0x71⟩, ⟨0xFB29, 0xFB29, 0x2B⟩, ⟨0xFE10, 0xFE10, 0x2C⟩,
  ⟨0xFE14, 0xFE14, 0x3B⟩, ⟨0xFE15, 0xFE15, 0x21⟩, ⟨0xFE33, 0xFE33, 0x5F⟩, ⟨0xFE34, 0xFE34, 0x5F⟩,
  ⟨0xFE35, 0xFE36, 0x28⟩, ⟨0xFE37, 0xFE37, 0x7B⟩, ⟨0xFE38, 0xFE38, 0x7D⟩, ⟨0xFE4D, 0xFE4D, 0x5F⟩,
  ⟨0xFE4E, 0xFE4E, 0x5F⟩, ⟨0xFE4F, 0xFE4F, 0x5F⟩, ⟨0xFE50, 0xFE50, 0x2C⟩, ⟨0xFE54, 0xFE54, 0x3B⟩,
  ⟨0xFE57, 0xFE57, 0x21⟩, ⟨0xFE59, 0xFE5A, 0x28⟩, ⟨0xFE5B, 0xFE5B, 0x7B⟩, ⟨0xFE5C, 0xFE5C, 0x7D⟩,
  ⟨0xFE60, 0xFE60, 0x26⟩, ⟨0xFE61, 0xFE62, 0x2A⟩, ⟨0xFE63, 0xFE63, 0x2D⟩, ⟨0xFE66, 0xFE66, 0x3D⟩,
  ⟨0xFE69, 0xFE69, 0x24⟩, ⟨0xFF01, 0xFF02, 0x21⟩, ⟨0xFF04, 0xFF04, 0x24⟩, ⟨0xFF06, 0xFF0E, 0x26⟩,
  ⟨0xFF10, 0xFF19, 0x30⟩, ⟨0xFF1B, 0xFF1B, 0x3B⟩, ⟨0xFF1D, 0xFF1D, 0x3D⟩, ⟨0xFF21, 0xFF3A, 0x61⟩,
  ⟨0xFF3F, 0xFF5B, 0x5F⟩, ⟨0xFF5D, 0xFF5E, 0x7D⟩, ⟨0xFF61, 0xFF61, 0x2E⟩, ⟨0x107A5, 0x107A5, 0x71⟩,
  ⟨0x1D400, 0x1D419, 0x61⟩, ⟨0x1D41A, 0x1D433, 0x61⟩, ⟨0x1D434, 0x1D44D, 0x61⟩,
  ⟨0x1D44E, 0x1D454, 0x61⟩, ⟨0x1D456, 0x1D467, 0x69⟩, ⟨0x1D468, 0x1D481, 0x61⟩,
  ⟨0x1D482, 0x1D49B, 0x61⟩, ⟨0x1D49C, 0x1D49C, 0x61⟩, ⟨0x1D49E, 0x1D49F, 0x63⟩,
  ⟨0x1D4A2, 0x1D4A2, 0x67⟩, ⟨0x1D4A5, 0x1D4A6, 0x6A⟩, ⟨0x1D4A9, 0x1D4AC, 0x6E⟩,
  ⟨0x1D4AE, 0x1D4B5, 0x73⟩, ⟨0x1D4B6, 0x1D4B9, 0x61⟩, ⟨0x1D4BB, 0x1D4BB, 0x66⟩,
  ⟨0x1D4BD, 0x1D4C3, 0x68⟩, ⟨0x1D4C5, 0x1D4CF, 0x70⟩, ⟨0x1D4D0, 0x1D4E9, 0x61⟩,
  ⟨0x1D4EA, 0x1D503, 0x61⟩, ⟨0x1D504, 0x1D505, 0x61⟩, ⟨0x1D507, 0x1D50A, 0x64⟩,
  ⟨0x1D50D, 0x1D514, 0x6A⟩, ⟨0x1D516, 0x1D51C, 0x73⟩, ⟨0x1D51E, 0x1D537, 0x61⟩,
  ⟨0x1D538, 0x1D539, 0x61⟩, ⟨0x1D53B, 0x1D53E, 0x64⟩, ⟨0x1D540, 0x1D544, 0x69⟩,
  ⟨0x1D546, 0x1D546, 0x6F⟩, ⟨0x1D54A, 0x1D550, 0x73⟩, ⟨0x1D552, 0x1D56B, 0x61⟩,
  ⟨0x1D56C, 0x1D585, 0x61⟩, ⟨0x1D586, 0x1D59F, 0x61⟩, ⟨0x1D5A0, 0x1D5B9, 0x61⟩,
  ⟨0x1D5BA, 0x1D5D3, 0x61⟩, ⟨0x1D5D4, 0x1D5ED, 0x61⟩, ⟨0x1D5EE, 0x1D607, 0x61⟩,
  ⟨0x1D608, 0x1D621, 0x61⟩, ⟨0x1D622, 0x1D63B, 0x61⟩, ⟨0x1D63C, 0x1D655, 0x61⟩,
  ⟨0x1D656, 0x1D66F, 0x61⟩, ⟨0x1D670, 0x1D689, 0x61⟩, ⟨0x1D68A, 0x1D6A3, 0x61⟩,
  ⟨0x1D7CE, 0x1D7D7, 0x30⟩, ⟨0x1D7D8, 0x1D7E1, 0x30⟩, ⟨0x1D7E2, 0x1D7EB, 0x30⟩,
  ⟨0x1D7EC, 0x1D7F5, 0x30⟩, ⟨0x1D7F6, 0x1D7FF, 0x30⟩, ⟨0x1F12B, 0x1F12B, 0x63⟩,
  ⟨0x1F12C, 0x1F12C, 0x72⟩, ⟨0x1F130, 0x1F149, 0x61⟩, ⟨0x1FBF0, 0x1FBF9, 0x30⟩]

/-- The ASCII character that is put in the place of a character. -/
def plainInNames? (c : Char) : Option Char :=
  (plainRuns.find? fun run => run.first ≤ c.toNat && c.toNat ≤ run.last).map fun run =>
    Char.ofNat (run.plain + (c.toNat - run.first))

end Unicode

/-! The direction in which characters are written, as far as it decides about the names of network
domains. All characters that are in none of these sets are written from left to right, or belong to
the character before them. -/

namespace Unicode

/-- Characters that are written from right to left. -/
def rightToLeft : CodeSet := .ofWords [
  "590 5BE 5C0 5C3 5C6 5C8-5FF 608 60B 60D 61B-64A 66D-66F 671-6D5 6E5-6E6 6EE-6EF 6FA-710",
  "712-72F 74B-7A5 7B1-7EA 7F4-7F5 7FA-7FC 7FE-815 81A 824 828 82E-858 85C-88F 892-897 8A0-8C9",
  "200F FB1D FB1F-FB28 FB2A-FD3D FD50-FDCE FDF0-FDFC FE70-FEFE 10800-1091E 10920-10A00 10A04",
  "10A07-10A0B 10A10-10A37 10A3B-10A3E 10A40-10AE4 10AE7-10B38 10B40-10D23 10D28-10D2F",
  "10D3A-10E5F 10E7F-10EAA 10EAD-10EFC 10F00-10F45 10F51-10F81 10F86-10FFF 1E800-1E8CF",
  "1E8D7-1E943 1E94B-1EEEF 1EEF2-1EFFF"]

/-- Digits that are written with letters from right to left. -/
def arabicNumbers : CodeSet := .ofWords [
  "600-605 660-669 66B-66C 6DD 890-891 8E2 10D30-10D39 10E60-10E7E"]

/-- Digits that are written in any direction. -/
def europeanNumbers : CodeSet := .ofWords [
  "30-39 B2-B3 B9 6F0-6F9 2070 2074-2079 2080-2089 2488-249B FF10-FF19 102E1-102FB 1D7CE-1D7FF",
  "1F100-1F10A 1FBF0-1FBF9"]

/-- Signs that have no direction of their own. -/
def directionless : CodeSet := .ofWords [
  "21-2F 3A-40 5B-60 7B-84 86-A9 AB-B1 B4 B6-B8 BB-BF D7 F7 2B9-2BA 2C2-2CF 2D2-2DF 2E5-2ED",
  "2EF-2FF 374-375 37E 384-385 387 3F6 58A 58D-58F 606-607 609-60A 60C 60E-60F 66A 6DE 6E9",
  "7F6-7F9 9F2-9F3 9FB AF1 BF3-BFA C78-C7E E3F F3A-F3D 1390-1399 1400 169B-169C 17DB 17F0-17F9",
  "1800-180A 180E 1940 1944-1945 19DE-19FF 1FBD 1FBF-1FC1 1FCD-1FCF 1FDD-1FDF 1FED-1FEF",
  "1FFD-1FFE 200B-200D 2010-2027 202F-205E 2060-2064 206A-206F 207A-207E 208A-208E 20A0-20C1",
  "2100-2101 2103-2106 2108-2109 2114 2116-2118 211E-2123 2125-2129/2 212E 213A-213B 2140-2144",
  "214A-214D 2150-215F 2189-218B 2190-2335 237B-2394 2396-2426 2440-244A 2460-2487 24EA-26AB",
  "26AD-27FF 2900-2B73 2B76-2B95 2B97-2BFF 2CE5-2CEA 2CF9-2CFF 2E00-2E5D 2E80-2E99 2E9B-2EF3",
  "2F00-2FD5 2FF0-2FFB 3001-3004 3008-3020 3030 3036-3037 303D-303F 309B-309C 30A0 30FB",
  "31C0-31E3 321D-321E 3250-325F 327C-327E 32B1-32BF 32CC-32CF 3377-337A 33DE-33DF 33FF",
  "4DC0-4DFF A490-A4C6 A60D-A60F A673 A67E-A67F A700-A721 A788 A828-A82B A838-A839 A874-A877",
  "AB6A-AB6B FB29 FD3E-FD4F FDCF FDFD-FDFF FE10-FE19 FE30-FE52 FE54-FE66 FE68-FE6B FEFF",
  "FF01-FF0F FF1A-FF20 FF3B-FF40 FF5B-FF65 FFE0-FFE6 FFE8-FFEE FFF9-FFFD 10101 10140-1018C",
  "10190-1019C 101A0 1091F 10B39-10B3F 11052-11065 11660-1166C 11FD5-11FF1 16FE2 1BCA0-1BCA3",
  "1D173-1D17A 1D1E9-1D1EA 1D200-1D241 1D245 1D300-1D356 1D6DB 1D715 1D74F 1D789 1D7C3 1E2FF",
  "1EEF0-1EEF1 1F000-1F02B 1F030-1F093 1F0A0-1F0AE 1F0B1-1F0BF 1F0C1-1F0CF 1F0D1-1F0F5",
  "1F10B-1F10F 1F12F 1F16A-1F16F 1F1AD 1F260-1F265 1F300-1F6D7 1F6DC-1F6EC 1F6F0-1F6FC",
  "1F700-1F776 1F77B-1F7D9 1F7E0-1F7EB 1F7F0 1F800-1F80B 1F810-1F847 1F850-1F859 1F860-1F887",
  "1F890-1F8AD 1F8B0-1F8B1 1F900-1FA53 1FA60-1FA6D 1FA70-1FA7C 1FA80-1FA88 1FA90-1FABD",
  "1FABF-1FAC5 1FACE-1FADB 1FAE0-1FAE8 1FAF0-1FAF8 1FB00-1FB92 1FB94-1FBCA E0001 E0020-E007F"]

end Unicode

/-! How letters are joined to their neighbours. -/

namespace Unicode

/-- Letters that are joined to the next one only. -/
def joinedBehind : CodeSet := .ofWords ["A872 10ACD 10AD7 10D00 10FCB"]

/-- Letters that are joined to the one before only. -/
def joinedBefore : CodeSet := .ofWords [
  "622-625 627 629 62F-632 648 671-673 675-677 688-699 6C0 6C3-6CB 6CD 6CF 6D2-6D3 6D5 6EE-6EF",
  "710 715-719 71E 728-72C/2 72F 74D 759-75B 76B-76C 771 773-774 778-779 840 846-847 849 854",
  "856-858 867 869-86A 870-882 88E 8AA-8AC 8AE 8B1-8B2 8B9 10AC5 10AC7 10AC9-10ACA 10ACE-10AD2",
  "10ADD 10AE1 10AE4 10AEF 10B81 10B83-10B85 10B89 10B8C 10B8E-10B8F 10B91 10BA9-10BAC 10D22",
  "10F33 10F54 10F74-10F75 10FB4-10FB6 10FB9-10FBA 10FBD 10FC2-10FC3 10FC9"]

/-- Letters that are joined to both neighbours. -/
def joinedBothWays : CodeSet := .ofWords [
  "620 626 628 62A-62E 633-63F 641-647 649-64A 66E-66F 678-687 69A-6BF 6C1-6C2 6CC 6CE 6D0-6D1",
  "6FA-6FC 6FF 712-714 71A-71D 71F-727 729 72B 72D-72E 74E-758 75C-76A 76D-770 772 775-777",
  "77A-77F 7CA-7EA 841-845 848 84A-853 855 860 862-865 868 886 889-88D 8A0-8A9 8AF-8B0 8B3-8B8",
  "8BA-8C8 1807 1820-1878 1887-18A8 18AA A840-A871 10AC0-10AC4 10AD3-10AD6 10AD8-10ADC",
  "10ADE-10AE0 10AEB-10AEE 10B80 10B82 10B86-10B88 10B8A-10B8B 10B8D 10B90 10BAD-10BAE",
  "10D01-10D21 10D23 10F30-10F32 10F34-10F44 10F51-10F53 10F70-10F73 10F76-10F81 10FB0",
  "10FB2-10FB3 10FB8 10FBB-10FBC 10FBE-10FBF 10FC1 10FC4 10FCA 1E900-1E943"]

/-- Signs that silence the vowel of a letter, behind which letters may be joined. -/
def silencers : CodeSet := .ofWords [
  "94D 9CD A4D ACD B4D BCD C4D CCD D3B-D3C D4D DCA E3A EBA F84 1039-103A 1714-1715 1734 17D2",
  "1A60 1B44 1BAA-1BAB 1BF2-1BF3 2D7F A806 A82C A8C4 A953 A9C0 AAF6 ABED 10A3F 11046 11070",
  "1107F 110B9 11133-11134 111C0 11235 112EA 1134D 11442 114C2 115BF 1163F 116B6 1172B 11839",
  "1193D-1193E 119E0 11A34 11A47 11A99 11C3F 11D44-11D45 11D97 11F41-11F42"]

end Unicode

end SchemaClasses
