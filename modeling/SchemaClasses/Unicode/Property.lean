import SchemaClasses.Unicode.Age
import SchemaClasses.Unicode.Break
import SchemaClasses.Text.Casing

/-! Sets of characters by the names of properties and of their values. -/

namespace SchemaClasses

namespace Unicode

/-- A set as it was before the newest version. -/
def settled (set : CodeSet) : CodeSet := set.difference newest

/-- The groups of categories to which code points without a character belong. -/
def openCategories : List Named := [
  (["any"], .all), (["c", "other"], others.union newest),
  (["cn", "unassigned"], unassigned.union newest)]

/-- All other general categories, alone and in groups. -/
def categories : List Named := [
  (["assigned"], assigned), (["ascii"], .range 0 0x7F),
  (["l", "letter"], letters), (["lc", "casedletter"], casedLetters),
  (["lu", "uppercaseletter"], uppercaseLetters), (["ll", "lowercaseletter"], lowercaseLetters),
  (["lt", "titlecaseletter"], titlecaseLetters), (["lm", "modifierletter"], modifierLetters),
  (["lo", "otherletter"], otherLetters), (["m", "mark", "combiningmark"], marks),
  (["mn", "nonspacingmark"], nonspacingMarks), (["mc", "spacingmark"], spacingMarks),
  (["me", "enclosingmark"], enclosingMarks), (["n", "number"], numbers),
  (["nd", "decimalnumber", "digit"], decimalDigits), (["nl", "letternumber"], letterNumbers),
  (["no", "othernumber"], otherNumbers), (["p", "punctuation", "punct"], punctuation),
  (["pc", "connectorpunctuation"], connectors), (["pd", "dashpunctuation"], dashes),
  (["ps", "openpunctuation"], openingPunctuation),
  (["pe", "closepunctuation"], closingPunctuation),
  (["pi", "initialpunctuation"], initialQuotes), (["pf", "finalpunctuation"], finalQuotes),
  (["po", "otherpunctuation"], otherPunctuation), (["s", "symbol"], symbols),
  (["sm", "mathsymbol"], mathSymbols), (["sc", "currencysymbol"], currencySymbols),
  (["sk", "modifiersymbol"], modifierSymbols), (["so", "othersymbol"], otherSymbols),
  (["z", "separator"], separators), (["zs", "spaceseparator"], spaceSeparators),
  (["zl", "lineseparator"], lineSeparators), (["zp", "paragraphseparator"], paragraphSeparators),
  (["cc", "control", "cntrl"], controls), (["cf", "format"], formats),
  (["co", "privateuse"], privateUse)]

/-- The characters that a mapping of case moves. -/
def moved (runs : List CaseRun) : CodeSet :=
  .unionAll (runs.map fun run =>
    if run.step = 1 then .range run.first run.last
    else .ofRanges ((List.range ((run.last - run.first) / run.step + 1)).map fun i =>
      (run.first + run.step * i, run.first + run.step * i)))

/-- The characters that change in lower case. -/
def changesLowercased : CodeSet := (moved lowercaseRuns).union (.ofWords ["130"])

/-- The characters that change in upper case. -/
def changesUppercased : CodeSet :=
  (moved uppercaseRuns).union (.ofRanges (expandingUppercase.map fun (code, _) => (code, code)))

/-- The characters that change at the start of a word. -/
def changesTitlecased : CodeSet :=
  (changesUppercased.union (.ofWords ["1C4 1C7 1CA 1F1"])).difference
    (.ofWords ["1C5 1C8 1CB 1F2 10D0-10FA 10FD-10FF 1F88-1F8F 1F98-1F9F 1FA8-1FAF 1FBC 1FCC 1FFC"])

/-- The characters that change where case is disregarded. -/
def changesFolded : CodeSet :=
  (changesLowercased.union (.ofWords [
    "B5 DF 149 17F 345 3C2 3D0-3D1 3D5-3D6 3F0-3F1 3F5 587 13F8-13FD 1C80-1C88 1E9A-1E9B",
    "1F80-1F87 1F90-1F97 1FA0-1FA7 1FB2-1FB4 1FB7 1FC2-1FC4 1FC7 1FF2-1FF4 1FF7 AB70-ABBF",
    "FB00-FB06 FB13-FB17"])).difference (.ofWords ["13A0-13F5"])

/-- The yes-or-no properties. -/
def binaryProperties : List Named := [
  (["ahex", "asciihexdigit"], asciiHexDigits), (["alpha", "alphabetic"], alphabetic),
  (["bidic", "bidicontrol"], bidiControls), (["bidim", "bidimirrored"], bidiMirrored),
  (["ci", "caseignorable"], caseIgnorable), (["cased"], cased),
  (["cwcf", "changeswhencasefolded"], changesFolded),
  (["cwcm", "changeswhencasemapped"], changesLowercased.union changesUppercased),
  (["cwl", "changeswhenlowercased"], changesLowercased),
  (["cwt", "changeswhentitlecased"], changesTitlecased),
  (["cwu", "changeswhenuppercased"], changesUppercased), (["dash"], dashCharacters),
  (["di", "defaultignorablecodepoint"], defaultIgnorable),
  (["dep", "deprecated"], deprecatedCharacters), (["dia", "diacritic"], diacritics),
  (["emoji"], emoji), (["ecomp", "emojicomponent"], emojiComponents),
  (["emod", "emojimodifier"], emojiModifiers), (["ebase", "emojimodifierbase"], emojiModifierBases),
  (["epres", "emojipresentation"], emojiPresentation),
  (["extpict", "extendedpictographic"], pictographs), (["ext", "extender"], extenders),
  (["grbase", "graphemebase"], graphemeBase), (["grext", "graphemeextend"], graphemeExtend),
  (["grlink", "graphemelink"], viramas), (["hex", "hexdigit"], hexDigits), (["hyphen"], hyphens),
  (["idsb", "idsbinaryoperator"], describingPairs),
  (["idst", "idstrinaryoperator"], describingTriples),
  (["idsu", "idsunaryoperator"], describingSingles), (["idcompatmathstart"], mathIdStart),
  (["idcompatmathcontinue"], mathIdContinue), (["idc", "idcontinue"], idContinue),
  (["ids", "idstart"], idStart), (["ideo", "ideographic"], ideographs),
  (["joinc", "joincontrol"], joinControls),
  (["loe", "logicalorderexception"], logicalOrderExceptions),
  (["lower", "lowercase"], lowercase), (["math"], math),
  (["mcm", "modifiercombiningmark"], modifierCombiningMarks),
  (["nchar", "noncharactercodepoint"], noncharacters),
  (["oalpha", "otheralphabetic"], otherAlphabetic),
  (["odi", "otherdefaultignorablecodepoint"], otherDefaultIgnorable),
  (["ogrext", "othergraphemeextend"], otherGraphemeExtend),
  (["oidc", "otheridcontinue"], otherIdContinue), (["oids", "otheridstart"], otherIdStart),
  (["olower", "otherlowercase"], otherLowercase), (["omath", "othermath"], otherMath),
  (["oupper", "otheruppercase"], otherUppercase), (["patsyn", "patternsyntax"], patternSyntax),
  (["patws", "patternwhitespace"], patternWhiteSpace),
  (["pcm", "prependedconcatenationmark"], prependedMarks),
  (["qmark", "quotationmark"], quotationMarks),
  (["radical"], radicals), (["ri", "regionalindicator"], regionalIndicators),
  (["sterm", "sentenceterminal"], sentenceTerminals), (["sd", "softdotted"], softDotted),
  (["term", "terminalpunctuation"], terminalPunctuation),
  (["uideo", "unifiedideograph"], unifiedIdeographs), (["upper", "uppercase"], uppercase),
  (["vs", "variationselector"], variationSelectors),
  (["wspace", "whitespace", "space"], whiteSpace),
  (["xidc", "xidcontinue"], decomposedIdContinue), (["xids", "xidstart"], decomposedIdStart)]

/-- The set that stands under a name. -/
def find? (values : List Named) (name : String) : Option CodeSet :=
  (values.find? fun (names, _) => name ∈ names).map (·.2)

/-- The characters of a writing system, or all that are used in it. -/
def script? (withShared : Bool) (name : String) : Option CodeSet :=
  if name ∈ ["zyyy", "common"] then
    some (if withShared then common.difference sharedBetweenScripts else common)
  else if name ∈ ["zinh", "inherited", "qaai"] then
    some (if withShared then inherited.difference sharedBetweenScripts else inherited)
  else (scripts.find? fun script => name ∈ script.names).map fun script =>
    if withShared then script.characters.union script.shared else script.characters

/-- The characters that were there in a version, which is named by its number, or by `v` and its
number without the dot. -/
def age? (name : String) : Option CodeSet :=
  let letters := name.toList
  let isNamed (version : String) : Bool :=
    version == name || 'v' :: version.toList.filter (· != '.') == letters
  let known := ages.takeWhile fun (version, _) => !isNamed version
  (ages[known.length]?).map fun (_, added) => added.union (.unionAll (known.map (·.2)))

/-- The ASCII letters of a name in lower case, without blanks, hyphens and underscores. -/
def plainLetters (name : List Char) : List Char :=
  (name.filter fun c => c != ' ' && c != '_' && c != '-' && c.toNat < 0x80).map Char.toLower

/-- A name as names are compared: a leading `is` counts in one name only. -/
def plainName (name : List Char) : String :=
  match name with
  | first :: second :: rest =>
    if first.toLower = 'i' ∧ second.toLower = 's' then
      let plain := plainLetters rest
      String.ofList (if plain = ['c'] then ['i', 's', 'c'] else plain)
    else String.ofList (plainLetters name)
  | _ => String.ofList (plainLetters name)

/-- The set of a general category. -/
def category? (name : String) : Option CodeSet :=
  find? openCategories name <|> (find? categories name).map settled

/-- The set that a plain name stands for by itself. -/
def named? (name : String) : Option CodeSet :=
  (find? binaryProperties name).map settled <|> category? name
    <|> (script? false name).map settled

/-- The set that plain names of a property and its value stand for. -/
def valued? (property value : String) : Option CodeSet :=
  match property with
  | "gc" | "generalcategory" => category? value
  | "sc" | "script" => (script? false value).map settled
  | "scx" | "scriptextensions" => (script? true value).map settled
  | "age" => age? value
  | "gcb" | "graphemeclusterbreak" => (find? letterBreaks value).map settled
  | "wb" | "wordbreak" => (find? wordBreaks value).map settled
  | "sb" | "sentencebreak" => (find? sentenceBreaks value).map settled
  | _ => none

end Unicode

end SchemaClasses
