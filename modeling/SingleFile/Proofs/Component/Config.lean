import SingleFile.Component.Config
import SingleFile.Proofs.Dictionary
import SingleFile.Proofs.Json.Fields
import SingleFile.Proofs.Json.RoundTrip

/-! # Configuration files

A configuration is read from every text that describes it: fields come in any order and are written in
any way that the grammar knows, a field may be left out where the default is meant, and fields with
other names may stand between them, whatever their values. But each known field stands at most once, and
is not null. A directory without a configuration file has the default configuration.
-/

namespace SingleFile

namespace Config

open Json

variable {config : Config} {fields : List (String × Json)} {members : List (Option String × Json)}
  {name : String}

/-- Fields give one value under a name, or leave the name out if that means the same. -/
inductive Gives (fields : List (String × Json)) (name : String) (fits : Json → Prop) (missing : Prop) :
    Prop
  | once (before after : List (String × Json)) {value : Json}
      (split : fields = before ++ (name, value) :: after)
      (absent : ∀ field ∈ before ++ after, field.1 ≠ name) (right : fits value)
  | omitted (absent : ∀ field ∈ fields, field.1 ≠ name) (default : missing)

/-- An object of texts gives aliases. The last of repeated tags counts. -/
def GivesAliases (aliases : Dictionary String String) (value : Json) : Prop :=
  ∃ entries : List (String × String), value = .ofFields (entries.map (Prod.map id .ofText)) ∧
    ∀ tag language, aliases.find? tag = some language ↔ LastWhere (· = tag) entries language

/-- Fields, with any others between them, say what a configuration is. -/
structure DescribedBy (config : Config) (fields : List (String × Json)) : Prop where
  sourceMap : Gives fields "sourceMap" (· = .bool config.sourceMap) (config.sourceMap = true)
  inlineSourceMap : Gives fields "inlineSourceMap" (· = .bool config.inlineSourceMap)
    (config.inlineSourceMap = false)
  aliases : Gives fields "langAliases" (GivesAliases config.aliases)
    (∀ tag, config.aliases.find? tag = none)

/-- Two configurations have the same settings, whatever the order of their aliases. -/
structure SameSettings (config config' : Config) : Prop where
  sourceMap : config.sourceMap = config'.sourceMap
  inlineSourceMap : config.inlineSourceMap = config'.inlineSourceMap
  aliases : ∀ tag, config.aliases.find? tag = config'.aliases.find? tag

/-- Members that no configuration has: a known name is repeated or stands for null. -/
inductive Spoiled : List (Option String × Json) → Prop
  | repeated {name : String} {before between after : List (Option String × Json)} {value value' : Json}
      (known : name ∈ fieldNames) :
      Spoiled (before ++ (some name, value) :: (between ++ (some name, value') :: after))
  | null {name : String} {members : List (Option String × Json)} (known : name ∈ fieldNames)
      (listed : (some name, .null) ∈ members) : Spoiled members

theorem Gives.exists_member? {fits : Json → Prop} {missing : Prop}
    (gives : Gives fields name fits missing) :
    ∃ given, member? (fields.map (Prod.map some id)) name = some given ∧
      (∀ value ∈ given, fits value) ∧ (given = none → missing) := by
  cases gives with
  | @once before after value split absent right =>
    refine ⟨some value, ?_, by rintro _ ⟨⟩; exact right, nofun⟩
    rw [split, List.map_append, List.map_cons]
    apply member?_of_once
    rw [← List.map_append, List.forall_mem_map]
    exact fun field listed same => absent field listed (Option.some.inj same)
  | omitted absent default =>
    refine ⟨none, member?_of_absent ?_, nofun, fun _ => default⟩
    rw [List.forall_mem_map]
    exact fun field listed same => absent field listed (Option.some.inj same)

/-- The settings of a record whose fields are given. -/
def settings? (sourceMap inlineSourceMap aliases : Option Json) : Option Config := do
  some
    { sourceMap := ← setting? asBool? default.sourceMap sourceMap
      inlineSourceMap := ← setting? asBool? default.inlineSourceMap inlineSourceMap
      aliases := ← setting? aliases? default.aliases aliases }

theorem ofJson?_eq_settings? {value : Json} {given : String → Option Json}
    (fields : fields? fieldNames 0 value = some (fieldNames.map given)) :
    ofJson? value =
      settings? (given "sourceMap") (given "inlineSourceMap") (given "langAliases") := by
  rw [ofJson?, fields]
  rfl

/-- One entry of an object of texts. -/
def aliasEntry? (member : Option String × Json) : Option (String × String) := do
  some (← member.1, ← asText? member.2)

theorem aliases?_ofFields (entries : List (String × String)) :
    aliases? (.ofFields (entries.map (Prod.map id .ofText))) = some (.ofList entries) := by
  have texts : ((entries.map (Prod.map id Json.ofText)).map (Prod.map some id)).mapM aliasEntry? =
      some entries := by
    rw [List.mapM_map, List.mapM_map, Option.mapM_eq_some_iff, List.forall₂_same]
    exact fun _ _ => rfl
  change (((entries.map (Prod.map id Json.ofText)).map (Prod.map some id)).mapM aliasEntry? >>= _) = _
  rw [texts]
  rfl

/-- A field that is given or left out rightly has the right value. -/
theorem exists_setting? {α : Type} (read : Json → Option α) (missing : α) (right : α → Prop)
    {given : Option Json} (fits : ∀ value ∈ given, ∃ setting, read value = some setting ∧ right setting)
    (default : given = none → right missing) :
    ∃ setting, setting? read missing given = some setting ∧ right setting := by
  cases given with
  | none => exact ⟨missing, rfl, default rfl⟩
  | some value => exact fits value rfl

theorem exists_ofJson? (described : config.DescribedBy fields) :
    ∃ read, ofJson? (.ofFields fields) = some read ∧ read.SameSettings config := by
  obtain ⟨sourceMap, sourceMapGiven, sourceMapFits, sourceMapMissing⟩ :=
    described.sourceMap.exists_member?
  obtain ⟨inline, inlineGiven, inlineFits, inlineMissing⟩ := described.inlineSourceMap.exists_member?
  obtain ⟨aliases, aliasesGiven, aliasesFit, aliasesMissing⟩ := described.aliases.exists_member?
  obtain ⟨first, firstRead, firstRight⟩ := exists_setting? asBool? default.sourceMap
    (· = config.sourceMap)
    (fun value given => ⟨_, by rw [sourceMapFits value given]; rfl, rfl⟩)
    fun none => (sourceMapMissing none).symm
  obtain ⟨second, secondRead, secondRight⟩ := exists_setting? asBool?
    default.inlineSourceMap (· = config.inlineSourceMap)
    (fun value given => ⟨_, by rw [inlineFits value given]; rfl, rfl⟩)
    fun none => (inlineMissing none).symm
  obtain ⟨third, thirdRead, thirdRight⟩ := exists_setting? aliases? default.aliases
    (fun read => ∀ tag, read.find? tag = config.aliases.find? tag)
    (fun value given => by
      obtain ⟨entries, rfl, last⟩ := aliasesFit value given
      refine ⟨_, aliases?_ofFields entries, fun tag => Option.ext fun language => ?_⟩
      rw [Dictionary.find?_ofList_eq_some_iff]
      exact (last tag language).symm)
    fun none tag => (aliasesMissing none tag).symm
  have named : (fields.map (Prod.map some id)).all (·.1.isSome) = true := by simp
  have read : fields? fieldNames 0 (.ofFields fields) = some (fieldNames.map fun name =>
      if name = "sourceMap" then sourceMap
      else if name = "inlineSourceMap" then inline
      else aliases) := by
    refine fields?_of_members named fun name known => ?_
    simp only [fieldNames, List.mem_cons, List.not_mem_nil, or_false] at known
    rcases known with rfl | rfl | rfl
    · exact sourceMapGiven
    · exact inlineGiven
    · exact aliasesGiven
  refine ⟨⟨first, second, third⟩, ?_, firstRight, secondRight, thirdRight⟩
  rw [ofJson?_eq_settings? read]
  simp only [settings?, String.reduceEq, reduceIte, firstRead, secondRead, thirdRead]
  rfl

theorem ofJson?_of_spoiled (spoiled : Spoiled members) : ofJson? (.object members) = none := by
  have given : ∃ name ∈ fieldNames,
      member? members name = none ∨ member? members name = some (some .null) := by
    cases spoiled with
    | @repeated name before between after value value' known =>
      refine ⟨name, known, .inl (member?_of_repeated ⟨(some name, value'), ?_, rfl⟩)⟩
      simp
    | @null name _ known listed =>
      refine ⟨name, known, ?_⟩
      cases read : member? members name with
      | none => exact .inl rfl
      | some given => exact .inr (congrArg some (eq_of_member? listed read))
  obtain ⟨name, known, spoiled⟩ := given
  obtain unreadable | ⟨given, read, each⟩ := fields?_object fieldNames 0 members
  · rw [ofJson?, unreadable]
    rfl
  · have null : given name = some .null := by
      rw [each name known] at spoiled
      exact spoiled.elim nofun Option.some.inj
    rw [ofJson?_eq_settings? read]
    simp only [fieldNames, List.mem_cons, List.not_mem_nil, or_false] at known
    rcases known with rfl | rfl | rfl <;> rw [null] <;> simp [settings?, setting?, asBool?, aliases?]

section Load

variable {files : FileSource} {directory text : String}

/-- Files have a text under a path. -/
structure Stores (files : FileSource) (path text : String) : Prop where
  present : files.exists? path = true
  read : files.read path = .ok text

theorem load_of_stores (stores : Stores files (Text.Path.join directory fileName) text) :
    load files directory = parse text := by
  rw [load, if_pos stores.present, stores.read]
  rfl

theorem parse_of_spells {value : Json} (spelled : SpellsPadded value text.toList)
    (read : ofJson? value = some config) : parse text = .ok config := by
  rw [parse, parse?_of_spells spelled, Option.bind_some, read]

theorem parse_of_refused {value : Json} (spelled : SpellsPadded value text.toList)
    (refused : ofJson? value = none) : parse text = .error .badJson := by
  rw [parse, parse?_of_spells spelled, Option.bind_some, refused]

/-- A directory whose configuration file describes a configuration, in whatever spelling, has this
configuration. If the file repeats a known name or gives null for one, it is refused. Without a file,
the configuration is the default one. -/
theorem load_spelled (files : FileSource) (directory : String) :
    (∀ text, Stores files (Text.Path.join directory fileName) text →
      (∀ (config : Config) fields, config.DescribedBy fields →
        SpellsPadded (.ofFields fields) text.toList →
          ∃ read, load files directory = .ok read ∧ read.SameSettings config) ∧
      ∀ members, Spoiled members → SpellsPadded (.object members) text.toList →
        load files directory = .error .badJson) ∧
    (files.exists? (Text.Path.join directory fileName) = false →
      load files directory = .ok default) := by
  refine ⟨fun text stores => ⟨?described, ?spoiled⟩, fun absent => if_neg (by simp [absent])⟩
  case described =>
    intro config fields described spelled
    obtain ⟨read, given, same⟩ := exists_ofJson? described
    exact ⟨read, (load_of_stores stores).trans (parse_of_spells spelled given), same⟩
  case spoiled =>
    intro members spoiled spelled
    exact (load_of_stores stores).trans (parse_of_refused spelled (ofJson?_of_spoiled spoiled))

end Load

/-- Another field, with a fraction and an exponent in its value. -/
def spelledNumeral : Numeral := ⟨false, [1], [5], some ⟨false, [2]⟩⟩

def spelledFields : List (String × Json) :=
  [("x", .array [.number spelledNumeral, .null]), ("sourceMap", .bool false), ("x", .object []),
    ("langAliases", .ofFields [("ts", .ofText "js"), ("ts", .ofText "c")])]

def spelledText : String :=
  "\x7b \"x\":[1.5E+2 ,null],\"\\u0073ourceMap\": false\n,\"x\":\x7b\x7d," ++
    "\"langAliases\":\x7b\"ts\":\"js\",\"ts\":\"c\"\x7d\x7d"

theorem spellsNumeral_spelledNumeral : SpellsNumeral spelledNumeral ['1', '.', '5', 'E', '+', '2'] := by
  have digit : ∀ c : Char, c.isDigit = true → SpellsDigits [c.toNat - 48] [c] := by
    intro c digit
    exact ⟨nofun, by simpa using digit, rfl⟩
  exact .unsigned (.mk (digit '1' rfl) nofun (.point (digit '5' rfl))
    (.some (.inr rfl) .plus (digit '2' rfl)))

theorem spellsText_escaped : SpellsText (some "sourceMap")
    ('"' :: (['\\', 'u', '0', '0', '7', '3'] ++ "ourceMap".toList ++ ['"'])) := by
  have zero : IsHexDigit '0' 0 := .inl rfl
  have seven : IsHexDigit '7' 7 := .inl rfl
  have three : IsHexDigit '3' 3 := .inl rfl
  have first : (Piece.unit 's'.toNat).Spelled ['\\', 'u', '0', '0', '7', '3'] :=
    .unit zero zero seven three
  exact .text (.cons first (Piece.spelled_map_escape "ourceMap".toList))
    (.unit (standsFor_map_ofChar "ourceMap".toList))

theorem spells_spelledText : SpellsPadded (.ofFields spelledFields) spelledText.toList := by
  have space : IsBlanks [' '] := isBlanks_singleton (by decide)
  have items : SpellsItems [.number spelledNumeral, .null]
      ("1.5E+2 ".toList ++ ',' :: "null".toList) :=
    .more (.mk isBlanks_nil (.number spellsNumeral_spelledNumeral) space)
      (.last Spells.null.padded)
  have maps : SpellsPadded (.bool false) " false\n".toList :=
    .mk space .no (isBlanks_singleton (by decide))
  have aliases : (Json.ofFields [("ts", .ofText "js"), ("ts", .ofText "c")]).Writable := by simp
  have members := SpellsMembers.more
    (.mk space (spellsText_renderText "x") isBlanks_nil
      (Spells.array items).padded)
    (.more (spellsText_escaped.member maps)
      (.more ((spellsText_renderText "x").member (Spells.emptyObject isBlanks_nil).padded)
        (.last ((spellsText_renderText "langAliases").member aliases.spells.padded))))
  have spelled := (Spells.object members).padded
  convert spelled using 1
  · rfl
  · decide +kernel

def spelledConfig : Config :=
  ⟨false, false, .ofList [("ts", "c")]⟩

def nullJson : Json :=
  .ofFields [("sourceMap", .null)]

/-- A directory with the text above, and one where a known name stands for null. -/
def spelledFiles : FileSource where
  exists? path := path = "/c/sfc.config.json" ∨ path = "/d/sfc.config.json"
  read path := .ok (if path = "/c/sfc.config.json" then spelledText else .ofList nullJson.render)

theorem describedBy_spelledFields : spelledConfig.DescribedBy spelledFields where
  sourceMap := .once (spelledFields.take 1) (spelledFields.drop 2) rfl (by decide) rfl
  inlineSourceMap := .omitted (by decide) rfl
  aliases := by
    refine .once (spelledFields.take 3) [] rfl (by decide)
      ⟨[("ts", "js"), ("ts", "c")], rfl, fun tag language => ?_⟩
    rw [← Dictionary.find?_ofList_eq_some_iff]
    rfl

/-- The escaped name is the known one, and the last of the repeated tags counts. -/
theorem load_spelled_spelledFiles :
    Stores spelledFiles (Text.Path.join "/c" fileName) spelledText ∧
      spelledConfig.DescribedBy spelledFields ∧
      SpellsPadded (.ofFields spelledFields) spelledText.toList ∧
      (∃ read, load spelledFiles "/c" = .ok read ∧ read.sourceMap = false ∧
        read.aliases.find? "ts" = some "c") ∧
      load spelledFiles "/d" = .error .badJson ∧ load spelledFiles "/e" = .ok default := by
  have stores : Stores spelledFiles (Text.Path.join "/c" fileName) spelledText :=
    ⟨by decide +kernel, by decide +kernel⟩
  have storesNull : Stores spelledFiles (Text.Path.join "/d" fileName) (.ofList nullJson.render) :=
    ⟨by decide +kernel, by decide +kernel⟩
  have known : "sourceMap" ∈ fieldNames := by decide
  have spellsNull : SpellsPadded nullJson (String.ofList nullJson.render).toList := by
    rw [String.toList_ofList]
    exact (Writable.spells (by simp [nullJson, Writable.null])).padded
  obtain ⟨read, loaded, same⟩ := ((load_spelled spelledFiles "/c").1 _ stores).1 _ _
    describedBy_spelledFields spells_spelledText
  refine ⟨stores, describedBy_spelledFields, spells_spelledText, ⟨read, loaded, same.sourceMap, ?_⟩,
    ?_, ?_⟩
  · rw [same.aliases]
    rfl
  · exact ((load_spelled spelledFiles "/d").1 _ storesNull).2 _
      (.null known List.mem_cons_self) spellsNull
  · exact (load_spelled spelledFiles "/e").2 (by decide +kernel)

end Config

end SingleFile
