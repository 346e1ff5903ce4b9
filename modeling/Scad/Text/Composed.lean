import Scad.Text.Mark

/-!
# Scad.Text.Composed

The composed form of a text: every letter with marks is one character where there is one for it, and
the marks that remain are in the order of their classes. Texts that look the same have the same
composed form.

* `composed`: the composed form, reached by taking all characters apart, ordering the marks and
  putting the parts together again.
-/

namespace Scad
namespace Text
namespace Composed

/-- Characters with the marks they take and the results. -/
def compositions : List CodeTable.Word := CodeTable.read
  ["61-300.E0-301.E1-302.E2-303.E3-308.E4-30A.E5-304.101-306.103-328.105-30C.1CE-30F.201",
   "61-311.203-307.227-325.1E01-323.1EA1-309.1EA3 63-327.E7-301.107-302.109-307.10B-30C.10D",
   "65-300.E8-301.E9-302.EA-308.EB-304.113-306.115-307.117-328.119-30C.11B-30F.205",
   "65-311.207-327.229-32D.1E19-330.1E1B-323.1EB9-309.1EBB-303.1EBD",
   "69-300.EC-301.ED-302.EE-308.EF-303.129-304.12B-306.12D-328.12F-30C.1D0-30F.209",
   "69-311.20B-330.1E2D-309.1EC9-323.1ECB",
   "6E-303.F1-301.144-327.146-30C.148-300.1F9-307.1E45-323.1E47-331.1E49-32D.1E4B",
   "6F-300.F2-301.F3-302.F4-303.F5-308.F6-304.14D-306.14F-30B.151-31B.1A1-30C.1D2-328.1EB",
   "6F-30F.20D-311.20F-307.22F-323.1ECD-309.1ECF",
   "75-300.F9-301.FA-302.FB-308.FC-303.169-304.16B-306.16D-30A.16F-30B.171-328.173",
   "75-31B.1B0-30C.1D4-30F.215-311.217-324.1E73-330.1E75-32D.1E77-323.1EE5-309.1EE7",
   "79-301.FD-308.FF-302.177-304.233-307.1E8F-30A.1E99-300.1EF3-323.1EF5-309.1EF7 79-303.1EF9",
   "64-30C.10F-307.1E0B-323.1E0D-331.1E0F-327.1E11-32D.1E13",
   "67-302.11D-306.11F-307.121-327.123-30C.1E7-301.1F5-304.1E21",
   "68-302.125-30C.21F-307.1E23-323.1E25-308.1E27-327.1E29-32E.1E2B-331.1E96 6A-302.135-30C.1F0",
   "6B-327.137-30C.1E9-301.1E31-323.1E33-331.1E35",
   "6C-301.13A-327.13C-30C.13E-323.1E37-331.1E3B-32D.1E3D",
   "72-301.155-327.157-30C.159-30F.211-311.213-307.1E59-323.1E5B-331.1E5F",
   "73-301.15B-302.15D-327.15F-30C.161-326.219-307.1E61-323.1E63",
   "74-327.163-30C.165-326.21B-307.1E6B-323.1E6D-331.1E6F-32D.1E71-308.1E97",
   "77-302.175-300.1E81-301.1E83-308.1E85-307.1E87-323.1E89-30A.1E98",
   "7A-301.17A-307.17C-30C.17E-302.1E91-323.1E93-331.1E95 FC-304.1D6-301.1D8-30C.1DA-300.1DC",
   "E4-304.1DF 227-304.1E1 E6-304.1E3-301.1FD 1EB-304.1ED 292-30C.1EF E5-301.1FB F8-301.1FF",
   "F6-304.22B F5-304.22D-301.1E4D-308.1E4F 22F-304.231 3CA-301.390-300.1FD2-342.1FD7",
   "3B1-301.3AC-313.1F00-314.1F01-300.1F70-306.1FB0-304.1FB1-342.1FB6",
   "3B5-301.3AD-313.1F10-314.1F11-300.1F72 3B7-301.3AE-313.1F20-314.1F21-300.1F74-342.1FC6",
   "3B9-301.3AF-308.3CA-313.1F30-314.1F31-300.1F76-306.1FD0-304.1FD1-342.1FD6",
   "3CB-301.3B0-300.1FE2-342.1FE7",
   "3C5-308.3CB-301.3CD-313.1F50-314.1F51-300.1F7A-306.1FE0-304.1FE1-342.1FE6",
   "3BF-301.3CC-313.1F40-314.1F41-300.1F78 3C9-301.3CE-313.1F60-314.1F61-300.1F7C-342.1FF6",
   "438-306.439-300.45D-304.4E3-308.4E5 435-300.450-308.451-306.4D7 433-301.453 456-308.457",
   "43A-301.45C 443-306.45E-304.4EF-308.4F1-30B.4F3 475-30F.477 436-306.4C2-308.4DD",
   "430-306.4D1-308.4D3 4D9-308.4DB 437-308.4DF 43E-308.4E7 4E9-308.4EB 44D-308.4ED 447-308.4F5",
   "44B-308.4F9 627-653.622-654.623-655.625 648-654.624 64A-654.626 6D5-654.6C0 6C1-654.6C2",
   "6D2-654.6D3 928-93C.929 930-93C.931 933-93C.934 9C7-9BE.9CB-9D7.9CC",
   "B47-B56.B48-B3E.B4B-B57.B4C B92-BD7.B94 BC6-BBE.BCA-BD7.BCC BC7-BBE.BCB C46-C56.C48",
   "CBF-CD5.CC0 CC6-CD5.CC7-CD6.CC8-CC2.CCA CCA-CD5.CCB D46-D3E.D4A-D57.D4C D47-D3E.D4B",
   "DD9-DCA.DDA-DCF.DDC-DDF.DDE DDC-DCA.DDD 1025-102E.1026 1B05-1B35.1B06 1B07-1B35.1B08",
   "1B09-1B35.1B0A 1B0B-1B35.1B0C 1B0D-1B35.1B0E 1B11-1B35.1B12 1B3A-1B35.1B3B 1B3C-1B35.1B3D",
   "1B3E-1B35.1B40 1B3F-1B35.1B41 1B42-1B35.1B43 62-307.1E03-323.1E05-331.1E07 E7-301.1E09",
   "113-300.1E15-301.1E17 229-306.1E1D 66-307.1E1F EF-301.1E2F 1E37-304.1E39",
   "6D-301.1E3F-307.1E41-323.1E43 14D-300.1E51-301.1E53 70-301.1E55-307.1E57 1E5B-304.1E5D",
   "15B-307.1E65 161-307.1E67 1E63-307.1E69 169-301.1E79 16B-308.1E7B 76-303.1E7D-323.1E7F",
   "78-307.1E8B-308.1E8D E2-301.1EA5-300.1EA7-309.1EA9-303.1EAB 1EA1-302.1EAD-306.1EB7",
   "103-301.1EAF-300.1EB1-309.1EB3-303.1EB5 EA-301.1EBF-300.1EC1-309.1EC3-303.1EC5 1EB9-302.1EC7",
   "F4-301.1ED1-300.1ED3-309.1ED5-303.1ED7 1ECD-302.1ED9",
   "1A1-301.1EDB-300.1EDD-309.1EDF-303.1EE1-323.1EE3",
   "1B0-301.1EE9-300.1EEB-309.1EED-303.1EEF-323.1EF1 1F00-300.1F02-301.1F04-342.1F06",
   "1F01-300.1F03-301.1F05-342.1F07 1F10-300.1F12-301.1F14 1F11-300.1F13-301.1F15",
   "1F20-300.1F22-301.1F24-342.1F26 1F21-300.1F23-301.1F25-342.1F27",
   "1F30-300.1F32-301.1F34-342.1F36 1F31-300.1F33-301.1F35-342.1F37 1F40-300.1F42-301.1F44",
   "1F41-300.1F43-301.1F45 1F50-300.1F52-301.1F54-342.1F56 1F51-300.1F53-301.1F55-342.1F57",
   "1F60-300.1F62-301.1F64-342.1F66 1F61-300.1F63-301.1F65-342.1F67 3C1-313.1FE4-314.1FE5",
   "2190-338.219A 2192-338.219B 2194-338.21AE 21D0-338.21CD 21D4-338.21CE 21D2-338.21CF",
   "2203-338.2204 2208-338.2209 220B-338.220C 2223-338.2224 2225-338.2226 223C-338.2241",
   "2243-338.2244 2245-338.2247 2248-338.2249 3D-338.2260 2261-338.2262 224D-338.226D 3C-338.226E",
   "3E-338.226F 2264-338.2270 2265-338.2271 2272-338.2274 2273-338.2275 2276-338.2278",
   "2277-338.2279 227A-338.2280 227B-338.2281 2282-338.2284 2283-338.2285 2286-338.2288",
   "2287-338.2289 22A2-338.22AC 22A8-338.22AD 22A9-338.22AE 22AB-338.22AF 227C-338.22E0",
   "227D-338.22E1 2291-338.22E2 2292-338.22E3 22B2-338.22EA 22B3-338.22EB 22B4-338.22EC",
   "22B5-338.22ED 304B-3099.304C 304D-3099.304E 304F-3099.3050 3051-3099.3052 3053-3099.3054",
   "3055-3099.3056 3057-3099.3058 3059-3099.305A 305B-3099.305C 305D-3099.305E 305F-3099.3060",
   "3061-3099.3062 3064-3099.3065 3066-3099.3067 3068-3099.3069 306F-3099.3070-309A.3071",
   "3072-3099.3073-309A.3074 3075-3099.3076-309A.3077 3078-3099.3079-309A.307A",
   "307B-3099.307C-309A.307D 3046-3099.3094 309D-3099.309E 30AB-3099.30AC 30AD-3099.30AE",
   "30AF-3099.30B0 30B1-3099.30B2 30B3-3099.30B4 30B5-3099.30B6 30B7-3099.30B8 30B9-3099.30BA",
   "30BB-3099.30BC 30BD-3099.30BE 30BF-3099.30C0 30C1-3099.30C2 30C4-3099.30C5 30C6-3099.30C7",
   "30C8-3099.30C9 30CF-3099.30D0-309A.30D1 30D2-3099.30D3-309A.30D4 30D5-3099.30D6-309A.30D7",
   "30D8-3099.30D9-309A.30DA 30DB-3099.30DC-309A.30DD 30A6-3099.30F4 30EF-3099.30F7",
   "30F0-3099.30F8 30F1-3099.30F9 30F2-3099.30FA 30FD-3099.30FE 105D2-307.105C9 105DA-307.105E4",
   "11099-110BA.1109A 1109B-110BA.1109C 110A5-110BA.110AB 11131-11127.1112E 11132-11127.1112F",
   "11347-1133E.1134B-11357.1134C 11382-113C9.11383 11384-113BB.11385 1138B-113C2.1138E",
   "11390-113C9.11391 113C2-113C2.113C5-113B8.113C7-113C9.113C8",
   "114B9-114BA.114BB-114B0.114BC-114BD.114BE 115B8-115AF.115BA 115B9-115AF.115BB",
   "11935-11930.11938 1611E-1611E.16121-16129.16122-1611F.16123-16120.16125 16129-1611F.16124",
   "16121-1611F.16126-16120.16128 16122-1611F.16127 16D67-16D67.16D68 16D63-16D67.16D69",
   "16D69-16D67.16D6A"]

/-! ## Hangul

A syllable is a leading consonant, a vowel and perhaps a trailing consonant, and its code point is
computed from theirs. -/

/-- The syllable of a leading consonant and a vowel. -/
def syllable? (a b : Nat) : Option Nat :=
  if 0x1100 ≤ a ∧ a < 0x1113 ∧ 0x1161 ≤ b ∧ b < 0x1176 then
    some (0xAC00 + ((a - 0x1100) * 21 + (b - 0x1161)) * 28)
  else none

/-- A syllable without a trailing consonant, together with one. -/
def closedSyllable? (a b : Nat) : Option Nat :=
  if 0xAC00 ≤ a ∧ a < 0xD7A4 ∧ (a - 0xAC00) % 28 = 0 ∧ 0x11A7 < b ∧ b < 0x11C3 then
    some (a + (b - 0x11A7))
  else none

/-- The two parts of a syllable. -/
def syllableParts? (n : Nat) : Option (Nat × Nat) :=
  if 0xAC00 ≤ n ∧ n < 0xD7A4 then
    let k := n - 0xAC00
    if k % 28 = 0 then some (0x1100 + k / 588, 0x1161 + k % 588 / 28)
    else some (n - k % 28, 0x11A7 + k % 28)
  else none

/-! ## Parts and wholes -/

/-- The character that two make together. -/
def compose? (a b : Char) : Option Char :=
  let found :=
    (syllable? a.toNat b.toNat).or <| (closedSyllable? a.toNat b.toNat).or <|
      if b.toNat < 0x300 then none
      else
        compositions.findSome? fun
          | [base] :: pairs =>
            if base = a.toNat then
              pairs.findSome? fun
                | [mark, whole] => if mark = b.toNat then some whole else none
                | _ => none
            else none
          | _ => none
  found.map Char.ofNat

/-- The two characters that make one together. -/
def parts? (c : Char) : Option (Char × Char) :=
  let found :=
    (syllableParts? c.toNat).or <|
      if c.toNat < 0x80 then none
      else
        compositions.findSome? fun
          | [base] :: pairs =>
            pairs.findSome? fun
              | [mark, whole] => if whole = c.toNat then some (base, mark) else none
              | _ => none
          | _ => none
  found.map fun (a, b) => (Char.ofNat a, Char.ofNat b)

/-- A character taken apart as far as possible; no character has more than `fuel` marks. -/
def takeApart : Nat → Char → List Char
  | 0, c => [c]
  | fuel + 1, c =>
    match parts? c with
    | some (a, b) => takeApart fuel a ++ [b]
    | none => [c]

/-- A character put before a text, behind the marks there that have a lower class. -/
def insert (c : Char) : List Char → List Char
  | [] => [c]
  | d :: ds =>
    if Mark.combiningClass d ≠ 0 ∧ Mark.combiningClass d < Mark.combiningClass c then
      d :: insert c ds
    else c :: d :: ds

/-- A text with its marks in order. -/
def ordered (s : List Char) : List Char := s.foldr insert []

/-- What becomes of a character, the marks after it that it did not take, last one first, and the
rest of the text. -/
def putTogether (base : Char) (marks : List Char) : List Char → List Char
  | [] => base :: marks.reverse
  | c :: cs =>
    let k := Mark.combiningClass c
    let blocked := marks.head?.any fun m => decide (k ≤ Mark.combiningClass m)
    match if blocked then none else compose? base c with
    | some whole => putTogether whole marks cs
    | none =>
      if k = 0 then base :: marks.reverse ++ putTogether c [] cs
      else putTogether base (c :: marks) cs

end Composed

open Composed

/-- The composed form of a text. -/
def composed (s : List Char) : List Char :=
  let parts := ordered (s.flatMap (takeApart 4))
  let isFree (c : Char) := Mark.combiningClass c != 0
  match parts.dropWhile isFree with
  | [] => parts
  | base :: rest => parts.takeWhile isFree ++ putTogether base [] rest

end Text
end Scad
