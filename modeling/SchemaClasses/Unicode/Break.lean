import SchemaClasses.Unicode.Core
import SchemaClasses.Unicode.Script

/-! How characters take part in the breaks between letters, words and sentences. -/

namespace SchemaClasses

namespace Unicode

/-- A value of a property, by its names in small letters without underscores. -/
abbrev Named := List String × CodeSet

/-- Leading consonants of syllables. -/
def leadingConsonants : CodeSet := .ofWords ["1100-115F A960-A97C"]

/-- Vowels of syllables. -/
def syllableVowels : CodeSet := .ofWords ["1160-11A7 D7B0-D7C6 16D63 16D67-16D6A"]

/-- Trailing consonants of syllables. -/
def trailingConsonants : CodeSet := .ofWords ["11A8-11FF D7CB-D7FB"]

/-- The syllables, in groups of 28 of which the first is the only one without a trailing
consonant. -/
def syllables : CodeSet := .ofWords ["AC00-D7A3"]

/-- Syllables that end with a vowel. -/
def openSyllables : CodeSet :=
  .ofRanges ((List.range 399).map fun i => (0xAC00 + 28 * i, 0xAC00 + 28 * i))

/-- Signs that belong to the character after them. -/
def prepended : CodeSet :=
  prependedMarks.union (.ofWords [
    "D4E 111C2-111C3 113D1 1193F 11941 11A3A 11A84-11A89 11D46 11F02"])

/-- Spacing marks that do not belong to the character before them. -/
def detachedMarks : CodeSet := .ofWords [
  "102B-102C 1038 1062-1064 1067-106D 1083 1087-108C 108F 109A-109C 1A61 1A63-1A64 AA7B AA7D",
  "11720-11721"]

/-- Letters of writing systems without spaces between words. -/
def unspacedLetters : CodeSet := .ofWords [
  "E01-E3A E40-E4E E81-E82 E84 E86-E8A E8C-EA3 EA5 EA7-EBD EC0-EC4 EC6 EC8-ECE EDC-EDF 1000-103F",
  "1050-108F 109A-109F 1780-17D3 17D7 17DC-17DD 1950-196D 1970-1974 1980-19AB 19B0-19C9 19DA",
  "19DE-19DF 1A20-1A5E 1A60-1A7C 1AA0-1AAD A9E0-A9EF A9FA-A9FE AA60-AAC2 AADB-AADF 11700-1171A",
  "1171D-1172B 1173A-1173B 1173F-11746"]

/-- The joiner of letters. -/
def joiner : CodeSet := .ofWords ["200D"]

/-- Characters that belong to the one before them where letters are told apart. -/
def letterExtensions : CodeSet := graphemeExtend.union emojiModifiers

/-- Characters that belong to the one before them where words are told apart. -/
def wordExtensions : CodeSet := (letterExtensions.union spacingMarks).difference joiner

/-- Formats with no other part in the breaks between words. -/
def wordFormats : CodeSet :=
  (formats.difference graphemeExtend).difference (.ofWords ["200B-200D"])

/-- Letters of the writing system of a name. -/
def scriptCharacters (name : String) : CodeSet :=
  ((scripts.find? fun script => name ∈ script.names).map Script.characters).getD {}

/-- Syllable signs that make up words by themselves. -/
def katakanaWords : CodeSet :=
  (scriptCharacters "katakana").union (.ofWords ["3031-3035 309B-309C 30A0 30FC FF70"])

/-- Letters between which words do not break, in one writing system. -/
def hebrewLetters : CodeSet := (scriptCharacters "hebrew").inter otherLetters

/-- All other letters between which words do not break. -/
def wordLetters : CodeSet :=
  (alphabetic.union (.ofWords [
    "2C2-2C5 2D2-2D7 2DE-2DF 2E5-2EB 2ED 2EF-2FF 55A-55C 55E 58A 5F3 70F A708-A716 A720-A721",
    "A789-A78A AB5B"])).difference
  (.unionAll [ideographs, katakanaWords, unspacedLetters, scriptCharacters "hiragana",
    wordExtensions, hebrewLetters, prependedMarks.difference (.ofWords ["70F"])])

/-- Digits and what joins them, without the sign for groups of digits. -/
def wordNumbers : CodeSet := decimalDigits.union (.ofWords ["66B"])

/-- The values of the property for the breaks between letters. -/
def letterBreaks : List Named := [
  (["cr"], .ofWords ["D"]),
  (["lf"], .ofWords ["A"]),
  (["cn", "control"],
    ((CodeSet.unionAll [lineSeparators, paragraphSeparators, controls, formats,
      unassigned.inter defaultIgnorable]).difference
        (.unionAll [prependedMarks, graphemeExtend, .ofWords ["A D 200C-200D"]]))),
  (["ex", "extend"], letterExtensions),
  (["zwj"], joiner),
  (["ri", "regionalindicator"], regionalIndicators),
  (["pp", "prepend"], prepended),
  (["sm", "spacingmark"],
    (spacingMarks.union (.ofWords ["E33 EB3"])).difference (graphemeExtend.union detachedMarks)),
  (["l"], leadingConsonants),
  (["v"], syllableVowels),
  (["t"], trailingConsonants),
  (["lv"], openSyllables),
  (["lvt"], syllables.difference openSyllables)]

/-- The values of the property for the breaks between words. -/
def wordBreaks : List Named := [
  (["cr"], .ofWords ["D"]),
  (["lf"], .ofWords ["A"]),
  (["nl", "newline"], .ofWords ["B-C 85 2028-2029"]),
  (["extend"], wordExtensions),
  (["zwj"], joiner),
  (["fo", "format"], wordFormats),
  (["ri", "regionalindicator"], regionalIndicators),
  (["ka", "katakana"], katakanaWords),
  (["hl", "hebrewletter"], hebrewLetters),
  (["le", "aletter"], wordLetters),
  (["sq", "singlequote"], .ofWords ["27"]),
  (["dq", "doublequote"], .ofWords ["22"]),
  (["mb", "midnumlet"], .ofWords ["2E 2018-2019 2024 FE52 FF07 FF0E"]),
  (["ml", "midletter"], .ofWords ["3A B7 387 55F 5F4 2027 FE13 FE55 FF1A"]),
  (["mn", "midnum"],
    .ofWords ["2C 3B 37E 589 60C-60D 66C 7F8 2044 FE10 FE14 FE50 FE54 FF0C FF1B"]),
  (["nu", "numeric"], wordNumbers),
  (["ex", "extendnumlet"], connectors.union (.ofWords ["202F"])),
  (["wsegspace"], .ofWords ["20 1680 2000-2006 2008-200A 205F 3000"])]

/-- Characters that separate paragraphs. -/
def sentenceSeparators : CodeSet := .ofWords ["85 2028-2029"]

/-- Characters that belong to the one before them where sentences are told apart. -/
def sentenceExtensions : CodeSet := .unionAll [graphemeExtend, spacingMarks, joiner]

/-- Small letters, for the breaks between sentences. -/
def sentenceLower : CodeSet :=
  (lowercase.difference graphemeExtend).difference (.ofWords ["10D0-10FA 10FD-10FF"])

/-- Capital letters, for the breaks between sentences. -/
def sentenceUpper : CodeSet :=
  (uppercase.union titlecaseLetters).difference (.ofWords ["1C90-1CBA 1CBD-1CBF"])

/-- Full stops, which may also stand inside a number. -/
def fullStops : CodeSet := .ofWords ["2E 2024 FE52 FF0E"]

/-- Signs that end a sentence without doubt. -/
def sentenceEnds : CodeSet := sentenceTerminals.difference fullStops

/-- The values of the property for the breaks between sentences. -/
def sentenceBreaks : List Named := [
  (["cr"], .ofWords ["D"]),
  (["lf"], .ofWords ["A"]),
  (["ex", "extend"], sentenceExtensions),
  (["se", "sep"], sentenceSeparators),
  (["fo", "format"],
    (formats.difference graphemeExtend).difference (.ofWords ["200C-200D"])),
  (["sp"], whiteSpace.difference (sentenceSeparators.union (.ofWords ["A D"]))),
  (["lo", "lower"], sentenceLower),
  (["up", "upper"], sentenceUpper),
  (["le", "oletter"],
    (alphabetic.union (.ofWords ["5F3"])).difference
      (.unionAll [sentenceLower, sentenceUpper, sentenceExtensions])),
  (["nu", "numeric"], decimalDigits.union (.ofWords ["66B-66C"])),
  (["at", "aterm"], fullStops),
  (["sc", "scontinue"],
    .ofWords [
      "2C-2D 3A 55D 60C-60D 7F8 1802 1808 2013-2014 3001 FE10-FE11 FE13 FE31-FE32 FE50-FE51 FE55",
      "FE58 FE63 FF0C-FF0D FF1A FF64"]),
  (["st", "sterm"], sentenceEnds),
  (["cl", "close"],
    (CodeSet.unionAll [openingPunctuation, closingPunctuation, initialQuotes, finalQuotes,
      .ofWords ["22 27 275B-2760 1F676-1F678"]]).difference (fullStops.union sentenceEnds))]

end Unicode

end SchemaClasses
