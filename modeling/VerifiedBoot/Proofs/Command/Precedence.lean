/-
Options before profiles. A command line that is accepted gives each option at most once and with a value
that can be read. Merged with a profile, every setting is what its option says, if the option is given, and
else what the profile says; and the source of the keyblock is taken as a whole from the command line, if it
names one. Only the id of exported chains is not looked at unless their directory is given too.
-/
import VerifiedBoot.Command.Run
import VerifiedBoot.Proofs.Results

namespace VerifiedBoot

open Command

/-! ## Settings -/

namespace Command.Given

variable {α : Type} {given : Given} {key : String}

/-- A setting is what its option says, if the option is given, and else what the profile says. -/
def Decides (given : Given) (key : String) (read : String → Option α) (profile merged : Option α) :
    Prop :=
  match given.lookup key with
  | some text => ∃ value, read text = some value ∧ merged = some value
  | none => merged = profile

/-- The number that a text says, as a word. -/
def wordOf (bound : Nat) (ofNat : Nat → α) (text : String) : Option α :=
  (Command.number? bound text).map ofNat

theorem decides_text (given : Given) (key : String) (profile : Option String) :
    given.Decides key some profile (given.lookup key <|> profile) := by
  unfold Decides
  cases given.lookup key with
  | none => rfl
  | some text => exact ⟨text, rfl, rfl⟩

theorem decides_number {bound : Nat} {ofNat : Nat → α} {value : Option Nat} (profile : Option α)
    (h : given.number? bound key = some value) :
    given.Decides key (wordOf bound ofNat) profile (value.map ofNat <|> profile) := by
  unfold number? at h
  unfold Decides wordOf
  cases hkey : given.lookup key with
  | none =>
    rw [hkey] at h
    cases h
    rfl
  | some text =>
    simp only [hkey, Option.map_eq_some_iff] at h
    obtain ⟨n, read, rfl⟩ := h
    exact ⟨ofNat n, by rw [read]; rfl, rfl⟩

theorem decides_word16 {value : Option UInt16} (profile : Option UInt16)
    (h : given.word16? key = some value) :
    given.Decides key (wordOf word16Bound UInt16.ofNat) profile (value <|> profile) := by
  obtain ⟨n, read, rfl⟩ := Option.map_eq_some_iff.1 h
  exact decides_number profile read

theorem decides_word32 {value : Option UInt32} (profile : Option UInt32)
    (h : given.word32? key = some value) :
    given.Decides key (wordOf word32Bound UInt32.ofNat) profile (value <|> profile) := by
  obtain ⟨n, read, rfl⟩ := Option.map_eq_some_iff.1 h
  exact decides_number profile read

theorem decides_word64 {value : Option UInt64} (profile : Option UInt64)
    (h : given.word64? key = some value) :
    given.Decides key (wordOf sizeBound UInt64.ofNat) profile (value <|> profile) := by
  obtain ⟨n, read, rfl⟩ := Option.map_eq_some_iff.1 h
  exact decides_number profile read

theorem decides_integrity {value : Option IntegrityPolicy} (profile : IntegrityPolicy)
    (h : integrity? given = some value) :
    given.Decides "integrity" IntegrityPolicy.ofName? (some profile) (some (value.getD profile)) := by
  unfold integrity? at h
  unfold Decides
  cases hkey : given.lookup "integrity" with
  | none =>
    rw [hkey] at h
    cases h
    rfl
  | some name =>
    simp only [hkey, Option.map_eq_some_iff] at h
    obtain ⟨policy, read, rfl⟩ := h
    exact ⟨policy, read, rfl⟩

end Command.Given

/-! ## Where the keyblock comes from -/

/-- The file that decides where the keyblock of new chains comes from. -/
inductive SourceFile where
  | keyblock (path : String)
  | rootKey (path : String)

/-- The keyblock comes before the root key. -/
def KeyPaths.sourceFile (paths : KeyPaths) : Option SourceFile :=
  match paths.keyblock, paths.rootPrivate with
  | some path, _ => some (.keyblock path)
  | .none, some path => some (.rootKey path)
  | .none, .none => .none

/-- The file that the command line names, or else the one that the profile names. -/
def Command.Given.sourceFile (given : Given) (profile : KeyPaths) : Option SourceFile :=
  match given.lookup "keyblock", given.lookup "root-private" with
  | some path, _ => some (.keyblock path)
  | none, some path => some (.rootKey path)
  | none, none => profile.sourceFile

/-- The source of the keyblock that files give, where all key files of a profile are loaded. -/
def SourceFile.Yields (files : FileStore) (keys : SigningKeys) (flags : KeyblockFlags) :
    Option SourceFile → Except Error ChainSource → Prop
  | some (keyblock path), source => ∃ bytes, files.read path = .ok bytes ∧ source = .ok (.reuse bytes)
  | some (rootKey path), source => ∃ bytes root, files.read path = .ok bytes ∧
      PrivateKey.ofAny bytes = .ok root ∧ source = .ok (.fresh root.toSigningKey
        (keys.dataPublic.getD (keys.dataKey.publicKey 1).toPacked) flags)
  | none, source => source = .error (.usage .missingKeyblockSource)

/-! ## Loaded keys -/

section Loading

variable {w w' : Workspace} {α β : Type}

/-- The run of an action in a workspace. -/
abbrev HostAction.runIn (action : HostAction (StateM Workspace) α) (w : Workspace) :
    Except Error α × Workspace :=
  action.run.run w

theorem runIn_bind_eq_ok {x : HostAction (StateM Workspace) α}
    {f : α → HostAction (StateM Workspace) β} {b : β} {w'' : Workspace} :
    (x >>= f).runIn w = (.ok b, w'') ↔
      ∃ a w', x.runIn w = (.ok a, w') ∧ (f a).runIn w' = (.ok b, w'') := by
  simp only [HostAction.runIn, ExceptT.run_bind, StateT.run_bind]
  rcases x.run.run w with ⟨e | a, w'⟩
  · constructor
    · intro h
      cases h
    · rintro ⟨_, _, h, -⟩
      cases h
  · constructor
    · intro h
      exact ⟨a, w', rfl, h⟩
    · rintro ⟨_, _, h, hb⟩
      cases h
      exact hb

theorem runIn_pure_eq_ok {a b : α} :
    (pure a : HostAction (StateM Workspace) α).runIn w = (.ok b, w') ↔ a = b ∧ w = w' := by
  show (Except.ok a, w) = _ ↔ _
  simp

theorem runIn_ofResult_eq_ok {result : Except Error α} {a : α} :
    (HostAction.ofResult result : HostAction (StateM Workspace) α).runIn w = (.ok a, w') ↔
      result = .ok a ∧ w = w' := by
  show (result, w) = _ ↔ _
  simp

theorem runIn_readFile_eq_ok {path : String} {onRefusal : FileError → Error} {bytes : Bytes} :
    (HostAction.access onRefusal (Host.readFile path) :
      HostAction (StateM Workspace) Bytes).runIn w = (.ok bytes, w') ↔
        w.files.read path = .ok bytes ∧ w = w' := by
  show ((w.files.read path).mapError onRefusal, w) = _ ↔ _
  simp [mapError_ok_iff]

/-- What reads a file reads one that may not be asked for, and then yields nothing. -/
theorem runIn_mapM_eq_ok {f : String → HostAction (StateM Workspace) α} {R : String → α → Prop}
    (hf : ∀ p a w', (f p).runIn w = (.ok a, w') ↔ R p a ∧ w = w') {path : Option String}
    {a : Option α} : (path.mapM f).runIn w = (.ok a, w') ↔ Option.Rel R path a ∧ w = w' := by
  cases path with
  | none =>
    show (pure none : HostAction (StateM Workspace) (Option α)).runIn w = _ ↔ _
    rw [runIn_pure_eq_ok]
    constructor
    · rintro ⟨rfl, same⟩
      exact ⟨.none, same⟩
    · rintro ⟨⟨⟩, same⟩
      exact ⟨rfl, same⟩
  | some p =>
    show (some <$> f p).runIn w = _ ↔ _
    rw [map_eq_pure_bind, runIn_bind_eq_ok]
    constructor
    · rintro ⟨b, w'', read, h⟩
      obtain ⟨rfl, rfl⟩ := runIn_pure_eq_ok.1 h
      obtain ⟨hb, same⟩ := (hf _ _ _).1 read
      exact ⟨.some hb, same⟩
    · rintro ⟨⟨hb⟩, same⟩
      exact ⟨_, w', (hf _ _ _).2 ⟨hb, same⟩, runIn_pure_eq_ok.2 ⟨rfl, rfl⟩⟩

/-! ### Key files -/

/-- A file holds a private key in some form. -/
def HoldsPrivateKey (files : FileStore) (path : String) (key : PrivateKey) : Prop :=
  ∃ bytes, files.read path = .ok bytes ∧ PrivateKey.ofAny bytes = .ok key

/-- A file holds a public key in some form. -/
def HoldsPublicKey (files : FileStore) (path : String) (key : PackedKey) : Prop :=
  ∃ bytes k, files.read path = .ok bytes ∧ PublicKey.ofAny bytes = .ok k ∧ k.toPacked = key

theorem runIn_readPrivateKey_eq_ok {path : String} {key : PrivateKey} :
    (HostAction.readPrivateKey path : HostAction (StateM Workspace) PrivateKey).runIn w
      = (.ok key, w') ↔ HoldsPrivateKey w.files path key ∧ w = w' := by
  unfold HostAction.readPrivateKey
  simp only [runIn_bind_eq_ok, runIn_readFile_eq_ok, runIn_ofResult_eq_ok]
  constructor
  · rintro ⟨bytes, _, ⟨read, rfl⟩, parsed, rfl⟩
    exact ⟨⟨bytes, read, parsed⟩, rfl⟩
  · rintro ⟨⟨bytes, read, parsed⟩, rfl⟩
    exact ⟨bytes, w, ⟨read, rfl⟩, parsed, rfl⟩

theorem runIn_loadPackedKey_eq_ok {path : String} {key : PackedKey} :
    (Command.loadPackedKey path : HostAction (StateM Workspace) PackedKey).runIn w
      = (.ok key, w') ↔ HoldsPublicKey w.files path key ∧ w = w' := by
  unfold Command.loadPackedKey HostAction.readPublicKey
  simp only [runIn_bind_eq_ok, runIn_readFile_eq_ok, runIn_ofResult_eq_ok, runIn_pure_eq_ok]
  constructor
  · rintro ⟨k, _, ⟨bytes, _, ⟨read, rfl⟩, parsed, rfl⟩, packed, rfl⟩
    exact ⟨⟨bytes, k, read, parsed, packed⟩, rfl⟩
  · rintro ⟨⟨bytes, k, read, parsed, packed⟩, rfl⟩
    exact ⟨k, w, ⟨bytes, w, ⟨read, rfl⟩, parsed, rfl⟩, packed, rfl⟩

/-- Keys are those that the files hold, and there is one just where there is a file. -/
structure LoadedFrom (files : FileStore) (paths : KeyPaths) (keys : SigningKeys) : Prop where
  dataKey : ∃ path, paths.dataPrivate = some path ∧ HoldsPrivateKey files path keys.dataKey
  keyblock : Option.Rel (fun path bytes => files.read path = .ok bytes) paths.keyblock keys.keyblock
  rootKey : Option.Rel (HoldsPrivateKey files) paths.rootPrivate keys.rootKey
  dataPublic : Option.Rel (HoldsPublicKey files) paths.dataPublic keys.dataPublic
  kernelSubkey : Option.Rel (HoldsPublicKey files) paths.kernelSubkey keys.kernelSubkey

theorem runIn_loadKeys {paths : KeyPaths} {keys : SigningKeys}
    (h : (Command.loadKeys paths : HostAction (StateM Workspace) SigningKeys).runIn w
      = (.ok keys, w')) : LoadedFrom w.files paths keys ∧ w = w' := by
  have read (p : String) (bytes : Bytes) (w'' : Workspace) :
      (HostAction.readInput p : HostAction (StateM Workspace) Bytes).runIn w = (.ok bytes, w'') ↔
        w.files.read p = .ok bytes ∧ w = w'' :=
    runIn_readFile_eq_ok
  unfold Command.loadKeys at h
  cases hpath : paths.dataPrivate with
  | none =>
    rw [hpath] at h
    cases h
  | some path =>
    rw [hpath] at h
    obtain ⟨dataKey, _, loaded, h⟩ := runIn_bind_eq_ok.1 h
    obtain ⟨hdata, rfl⟩ := runIn_readPrivateKey_eq_ok.1 loaded
    obtain ⟨bytes, _, loaded, h⟩ := runIn_bind_eq_ok.1 h
    obtain ⟨hkeyblock, rfl⟩ := (runIn_mapM_eq_ok read).1 loaded
    obtain ⟨root, _, loaded, h⟩ := runIn_bind_eq_ok.1 h
    obtain ⟨hroot, rfl⟩ := (runIn_mapM_eq_ok fun _ _ _ => runIn_readPrivateKey_eq_ok).1 loaded
    obtain ⟨dataPublic, _, loaded, h⟩ := runIn_bind_eq_ok.1 h
    obtain ⟨hpublic, rfl⟩ := (runIn_mapM_eq_ok fun _ _ _ => runIn_loadPackedKey_eq_ok).1 loaded
    obtain ⟨subkey, _, loaded, h⟩ := runIn_bind_eq_ok.1 h
    obtain ⟨hsubkey, rfl⟩ := (runIn_mapM_eq_ok fun _ _ _ => runIn_loadPackedKey_eq_ok).1 loaded
    obtain ⟨rfl, same⟩ := runIn_pure_eq_ok.1 h
    exact ⟨⟨⟨path, hpath, hdata⟩, hkeyblock, hroot, hpublic, hsubkey⟩, same⟩

/-- The source that loaded keys give is that of the file which comes first. -/
theorem LoadedFrom.yields {files : FileStore} {paths : KeyPaths} {keys : SigningKeys}
    (loaded : LoadedFrom files paths keys) (flags : KeyblockFlags) :
    SourceFile.Yields files keys flags paths.sourceFile (keys.source flags) := by
  obtain ⟨-, keyblock, rootKey, -, -⟩ := loaded
  obtain ⟨dataPrivate, keyblockFile, rootFile, _, _⟩ := paths
  obtain ⟨dataKey, held, root, dataPublic, subkey⟩ := keys
  unfold KeyPaths.sourceFile SigningKeys.source
  cases keyblock with
  | some read => exact ⟨_, read, rfl⟩
  | none =>
    cases rootKey with
    | some holds =>
      obtain ⟨bytes, read, parsed⟩ := holds
      exact ⟨bytes, _, read, parsed, rfl⟩
    | none => exact rfl

end Loading

/-! ## Lines -/

namespace CommandLine

variable {arguments : List String} {line : CommandLine}

/-- A line names a command, and gives it these options. -/
def Gives (arguments : List String) (name : String) (given : Given) : Prop :=
  ∃ globals rest form, readOptions globalForms arguments none [] = some (globals, name :: rest) ∧
    commandForms.find? (·.name == name) = some form ∧
    readOptions form.forms rest none [] = some (given, [])

/-- The command of a line is what its name makes of the options given. -/
theorem exists_form_of_parse {command : Command} (h : parse arguments = some line)
    (hcommand : line.command = some command) : ∃ form given,
      form ∈ commandForms ∧ Gives arguments form.name given ∧ form.meaning given = some command := by
  unfold parse at h
  obtain ⟨⟨globals, rest⟩, hglobals, h⟩ := Option.bind_eq_some_iff.1 h
  obtain ⟨parsed, hparsed, h⟩ := Option.bind_eq_some_iff.1 h
  cases h
  obtain rfl : parsed = some command := hcommand
  cases rest with
  | nil => cases hparsed
  | cons name rest =>
    obtain ⟨form, hform, h⟩ := Option.bind_eq_some_iff.1 hparsed
    obtain ⟨⟨given, left⟩, hgiven, h⟩ := Option.bind_eq_some_iff.1 h
    cases left with
    | cons _ _ => cases h
    | nil =>
      obtain ⟨_, meaning, h⟩ := Option.bind_eq_some_iff.1 h
      cases h
      have named : form.name = name := by simpa using List.find?_some hform
      subst named
      exact ⟨form, given, List.mem_of_find?_eq_some hform, ⟨globals, rest, form, hglobals, hform, hgiven⟩,
        meaning⟩

end CommandLine

/-! ## Merged settings -/

/-- The key files that a signing loads. The command line names one source of the keyblock at most. -/
structure KeysMerged (given : Given) (profile merged : KeyPaths) : Prop where
  oneSource : given.lookup "keyblock" = none ∨ given.lookup "root-private" = none
  dataPrivate : given.Decides "signprivate" some profile.dataPrivate merged.dataPrivate
  dataPublic : given.Decides "data-public" some profile.dataPublic merged.dataPublic
  source : merged.sourceFile = given.sourceFile profile

/-- What a signing of firmware is done with. The id of exported chains takes part with their directory
only. -/
structure FirmwareMerged (given : Given) (profile merged : Profile) : Prop
    extends KeysMerged given profile.keys merged.keys where
  kernelSubkey : given.Decides "kernel-subkey" some profile.keys.kernelSubkey merged.keys.kernelSubkey
  version : given.Decides "fw-version" (Given.wordOf word16Bound UInt16.ofNat)
    profile.firmware.version merged.firmware.version
  flags : given.Decides "flags" (Given.wordOf word32Bound UInt32.ofNat)
    profile.firmware.flags merged.firmware.flags
  keyblockFlags : given.Decides "keyblock-flags" (Given.wordOf word32Bound UInt32.ofNat)
    profile.firmware.keyblockFlags merged.firmware.keyblockFlags
  lengthA : given.Decides "fv-size-a" (Given.wordOf sizeBound UInt64.ofNat)
    profile.firmware.lengthA merged.firmware.lengthA
  lengthB : given.Decides "fv-size-b" (Given.wordOf sizeBound UInt64.ofNat)
    profile.firmware.lengthB merged.firmware.lengthB
  integrity : given.Decides "integrity" IntegrityPolicy.ofName?
    (some profile.firmware.integrity) (some merged.firmware.integrity)
  exportDirectory : given.Decides "loemdir" some
    (profile.chainExport.map (·.directory)) (merged.chainExport.map (·.directory))
  exportId : (given.has "loemid" = true → given.has "loemdir" = true) → given.Decides "loemid" some
    (profile.chainExport.map (·.id)) (merged.chainExport.map (·.id))

/-- What a signing of a kernel is done with. No option names a kernel subkey. -/
structure KernelMerged (given : Given) (profile merged : Profile) : Prop
    extends KeysMerged given profile.keys merged.keys where
  kernelSubkey : merged.keys.kernelSubkey = profile.keys.kernelSubkey
  version : given.Decides "kernel-version" (Given.wordOf word16Bound UInt16.ofNat)
    profile.kernel.version merged.kernel.version
  flags : given.Decides "flags" (Given.wordOf word32Bound UInt32.ofNat)
    profile.kernel.flags merged.kernel.flags
  keyblockFlags : given.Decides "keyblock-flags" (Given.wordOf word32Bound UInt32.ofNat)
    profile.kernel.keyblockFlags merged.kernel.keyblockFlags
  padding : given.Decides "padding" (Given.wordOf sizeBound UInt64.ofNat)
    profile.kernel.padding merged.kernel.padding

section Merging

variable {given : Given}

theorem signingArguments_eq {a : SigningArguments} (h : signingArguments? given = some a) :
    (given.lookup "keyblock" = none ∨ given.lookup "root-private" = none) ∧
    given.word32? "keyblock-flags" = some a.keyblockFlags ∧ given.word32? "flags" = some a.flags ∧
    a = ⟨given.lookup "profile", given.lookup "signprivate", given.lookup "keyblock",
      given.lookup "root-private", given.lookup "data-public", a.keyblockFlags, a.flags⟩ := by
  unfold signingArguments? at h
  obtain ⟨_, oneSource, h⟩ := Option.bind_eq_some_iff.1 h
  obtain ⟨_, keyblockFlags, h⟩ := Option.bind_eq_some_iff.1 h
  obtain ⟨_, flags, h⟩ := Option.bind_eq_some_iff.1 h
  cases h
  refine ⟨?_, keyblockFlags, flags, rfl⟩
  unfold Given.has at oneSource
  cases hkeyblock : given.lookup "keyblock" with
  | none => exact .inl rfl
  | some _ =>
    cases hroot : given.lookup "root-private" with
    | none => exact .inr rfl
    | some _ =>
      rw [hkeyblock, hroot] at oneSource
      cases oneSource

theorem keysMerged_of_signingArguments {a : SigningArguments} (h : signingArguments? given = some a)
    (profile : KeyPaths) : KeysMerged given profile (a.applyTo profile) := by
  obtain ⟨oneSource, -, -, fields⟩ := signingArguments_eq h
  rw [fields]
  refine ⟨oneSource, Given.decides_text _ _ _, Given.decides_text _ _ _, ?_⟩
  unfold SigningArguments.applyTo KeyPaths.sourceFile Given.sourceFile
  cases hkeyblock : given.lookup "keyblock" with
  | some _ => rfl
  | none =>
    cases hroot : given.lookup "root-private" with
    | some _ => rfl
    | none => rfl

theorem chainExport_directory {target : Option ChainExport} (profile : Option ChainExport)
    (h : chainExport? given = some target) : given.Decides "loemdir" some
      (profile.map (·.directory)) ((target <|> profile).map (·.directory)) := by
  unfold chainExport? at h
  unfold Given.Decides
  cases hdirectory : given.lookup "loemdir" with
  | none =>
    simp only [hdirectory] at h
    cases h
    rfl
  | some directory =>
    cases hid : given.lookup "loemid" with
    | none => simp only [hdirectory, hid] at h; cases h
    | some id =>
      simp only [hdirectory, hid] at h
      cases h
      exact ⟨directory, rfl, rfl⟩

theorem chainExport_id {target : Option ChainExport} (profile : Option ChainExport)
    (together : given.has "loemid" = true → given.has "loemdir" = true)
    (h : chainExport? given = some target) : given.Decides "loemid" some
      (profile.map (·.id)) ((target <|> profile).map (·.id)) := by
  unfold chainExport? at h
  unfold Given.has at together
  unfold Given.Decides
  cases hdirectory : given.lookup "loemdir" with
  | none =>
    simp only [hdirectory] at h
    cases h
    cases hid : given.lookup "loemid" with
    | none => rfl
    | some id =>
      rw [hdirectory, hid] at together
      exact absurd (together rfl) (by decide)
  | some directory =>
    cases hid : given.lookup "loemid" with
    | none => simp only [hdirectory, hid] at h; cases h
    | some id =>
      simp only [hdirectory, hid] at h
      cases h
      exact ⟨id, rfl, rfl⟩

end Merging

/-- A line for the signing of firmware takes every setting from its options before the profile. -/
theorem firmwareMerged_of_parse {arguments : List String} {line : CommandLine}
    {a : FirmwareArguments} (h : CommandLine.parse arguments = some line)
    (hcommand : line.command = some (.sign a)) :
    ∃ given, CommandLine.Gives arguments "sign" given ∧ a.profile = given.lookup "profile" ∧
      ∀ p, FirmwareMerged given p (a.applyTo p) := by
  obtain ⟨form, given, mem, gives, meaning⟩ := CommandLine.exists_form_of_parse h hcommand
  simp only [commandForms, List.mem_cons, List.not_mem_nil, or_false] at mem
  -- no other form makes this command
  rcases mem with rfl | rfl | rfl | rfl | rfl | rfl | rfl | rfl
  all_goals simp only [Option.bind_eq_bind, Option.bind_eq_some_iff, Option.pure_def,
    Option.some.injEq, reduceCtorEq, and_false, exists_false] at meaning
  obtain ⟨signing, hsigning, input, -, output, -, version, hversion, lengthA, hlengthA, lengthB,
    hlengthB, integrity, hintegrity, target, htarget, made⟩ := meaning
  cases made
  obtain ⟨-, hkeyblockFlags, hflags, fields⟩ := signingArguments_eq hsigning
  refine ⟨given, gives, congrArg SigningArguments.profile fields, fun p => ?_⟩
  have keys := keysMerged_of_signingArguments hsigning p.keys
  exact {
    toKeysMerged := ⟨keys.oneSource, keys.dataPrivate, keys.dataPublic, keys.source⟩
    kernelSubkey := Given.decides_text _ _ _
    version := Given.decides_word16 _ hversion
    flags := Given.decides_word32 _ hflags
    keyblockFlags := Given.decides_word32 _ hkeyblockFlags
    lengthA := Given.decides_word64 _ hlengthA
    lengthB := Given.decides_word64 _ hlengthB
    integrity := Given.decides_integrity _ hintegrity
    exportDirectory := chainExport_directory _ htarget
    exportId := fun together => chainExport_id _ together htarget }

/-- So does a line for the signing of kernels. -/
theorem kernelMerged_of_parse {arguments : List String} {line : CommandLine} {a : KernelArguments}
    (h : CommandLine.parse arguments = some line) (hcommand : line.command = some (.signKernel a)) :
    ∃ given, CommandLine.Gives arguments "sign-kernel" given ∧ a.profile = given.lookup "profile" ∧
      ∀ p, KernelMerged given p (a.applyTo p) := by
  obtain ⟨form, given, mem, gives, meaning⟩ := CommandLine.exists_form_of_parse h hcommand
  simp only [commandForms, List.mem_cons, List.not_mem_nil, or_false] at mem
  rcases mem with rfl | rfl | rfl | rfl | rfl | rfl | rfl | rfl
  all_goals simp only [Option.bind_eq_bind, Option.bind_eq_some_iff, Option.pure_def,
    Option.some.injEq, reduceCtorEq, and_false, exists_false] at meaning
  obtain ⟨signing, hsigning, input, -, output, -, version, hversion, padding, hpadding, made⟩ := meaning
  cases made
  obtain ⟨-, hkeyblockFlags, hflags, fields⟩ := signingArguments_eq hsigning
  refine ⟨given, gives, congrArg SigningArguments.profile fields, fun p => ?_⟩
  exact {
    toKeysMerged := keysMerged_of_signingArguments hsigning p.keys
    kernelSubkey := rfl
    version := Given.decides_word16 _ hversion
    flags := Given.decides_word32 _ hflags
    keyblockFlags := Given.decides_word32 _ hkeyblockFlags
    padding := Given.decides_word64 _ hpadding }

/-! ## Runs -/

/-- The profile that a file holds, or the empty one if there is no file. -/
def ProfileFrom (files : FileStore) (path : Option String) (p : Profile) : Prop :=
  match path with
  | none => p = .none
  | some path => ∃ bytes, files.read path = .ok bytes ∧ Profile.parseBytes bytes = .ok p

section Running

variable {w w' : Workspace}

theorem runIn_loadProfile {path : Option String} {p : Profile}
    (h : (loadProfile path : HostAction (StateM Workspace) Profile).runIn w = (.ok p, w')) :
    ProfileFrom w.files path p ∧ w = w' := by
  cases path with
  | none =>
    obtain ⟨rfl, same⟩ := runIn_pure_eq_ok.1 h
    exact ⟨rfl, same⟩
  | some path =>
    obtain ⟨bytes, _, loaded, h⟩ := runIn_bind_eq_ok.1 h
    obtain ⟨read, rfl⟩ := runIn_readFile_eq_ok.1 loaded
    obtain ⟨parsed, same⟩ := runIn_ofResult_eq_ok.1 h
    exact ⟨⟨bytes, read, parsed⟩, same⟩

/-- A run that signs firmware and succeeds, with these settings: it signs with the keys and options that
they name, and last writes the chains where they say. -/
def FirmwareRun (settings : Profile) (input : String) (w w' : Workspace) : Prop :=
  ∃ keys source signer bytes report image before, LoadedFrom w.files settings.keys keys ∧
    keys.source (keyblockFlagsOf settings.firmware.keyblockFlags) = .ok source ∧
    Signer.make source keys.dataKey.toSigningKey
      { settings.firmware.signOptions with subkey := keys.kernelSubkey } .software .indexed
        = .ok signer ∧
    w.files.read input = .ok bytes ∧ FirmwareImage.sign signer bytes = .ok report image ∧
    ∀ target, settings.chainExport = some target →
      (exportChains target report.vblocks : HostAction (StateM Workspace) Unit).runIn before
        = (.ok (), w')

/-- A run that signs a kernel and succeeds, with these settings. -/
def KernelRun (settings : Profile) (input : String) (w : Workspace) : Prop :=
  ∃ keys source signer bytes image, LoadedFrom w.files settings.keys keys ∧
    keys.source (keyblockFlagsOf settings.kernel.keyblockFlags) = .ok source ∧
    Signer.make source keys.dataKey.toSigningKey settings.kernel.signOptions .software .raw
      = .ok signer ∧
    w.files.read input = .ok bytes ∧
    signedKernel bytes signer ((settings.kernel.padding.map (·.toNat)).getD 0) = .ok image

theorem firmwareRun_of_runIn {a : FirmwareArguments}
    (h : (signAction a : HostAction (StateM Workspace) Unit).runIn w = (.ok (), w')) :
    ∃ p, ProfileFrom w.files a.profile p ∧ FirmwareRun (a.applyTo p) a.input w w' := by
  obtain ⟨p, _, loaded, h⟩ := runIn_bind_eq_ok.1 h
  obtain ⟨profile, rfl⟩ := runIn_loadProfile loaded
  obtain ⟨keys, _, loaded, h⟩ := runIn_bind_eq_ok.1 h
  obtain ⟨hkeys, rfl⟩ := runIn_loadKeys loaded
  obtain ⟨signer, _, loaded, h⟩ := runIn_bind_eq_ok.1 h
  obtain ⟨hsigner, rfl⟩ := runIn_ofResult_eq_ok.1 loaded
  obtain ⟨source, hsource, made⟩ := bind_eq_ok.1 hsigner
  obtain ⟨bytes, _, loaded, h⟩ := runIn_bind_eq_ok.1 h
  obtain ⟨read, rfl⟩ := runIn_readFile_eq_ok.1 loaded
  cases signed : FirmwareImage.sign signer bytes with
  | error e _ =>
    rw [signed] at h
    cases h
  | ok report image =>
    rw [signed] at h
    obtain ⟨_, _, -, h⟩ := runIn_bind_eq_ok.1 h
    obtain ⟨_, _, -, h⟩ := runIn_bind_eq_ok.1 h
    obtain ⟨_, before, -, h⟩ := runIn_bind_eq_ok.1 h
    refine ⟨p, profile, keys, source, signer, bytes, report, image, before, hkeys, hsource, made, read,
      signed, fun target htarget => ?_⟩
    rw [htarget] at h
    exact h

theorem kernelRun_of_runIn {a : KernelArguments}
    (h : (signKernelAction a : HostAction (StateM Workspace) Unit).runIn w = (.ok (), w')) :
    ∃ p, ProfileFrom w.files a.profile p ∧ KernelRun (a.applyTo p) a.input w := by
  obtain ⟨p, _, loaded, h⟩ := runIn_bind_eq_ok.1 h
  obtain ⟨profile, rfl⟩ := runIn_loadProfile loaded
  obtain ⟨keys, _, loaded, h⟩ := runIn_bind_eq_ok.1 h
  obtain ⟨hkeys, rfl⟩ := runIn_loadKeys loaded
  obtain ⟨signer, _, loaded, h⟩ := runIn_bind_eq_ok.1 h
  obtain ⟨hsigner, rfl⟩ := runIn_ofResult_eq_ok.1 loaded
  obtain ⟨source, hsource, made⟩ := bind_eq_ok.1 hsigner
  obtain ⟨bytes, _, loaded, h⟩ := runIn_bind_eq_ok.1 h
  obtain ⟨read, rfl⟩ := runIn_readFile_eq_ok.1 loaded
  obtain ⟨image, _, loaded, -⟩ := runIn_bind_eq_ok.1 h
  obtain ⟨signed, -⟩ := runIn_ofResult_eq_ok.1 loaded
  exact ⟨p, profile, keys, source, signer, bytes, image, hkeys, hsource, made, read, signed⟩

end Running

/-- On every line that signs, options come before the profile: each setting that the command line gives is
used, and the profile decides the others. The source of the keyblock is that of the file named first, and a
run that succeeds has signed with these settings. An id of exported chains is not used without a directory. -/
theorem CommandLine.options_before_profile {arguments : List String} {line : CommandLine}
    (accepted : CommandLine.parse arguments = some line) :
    (∀ a, line.command = some (.sign a) → ∃ given, CommandLine.Gives arguments "sign" given ∧
      a.profile = given.lookup "profile" ∧ (∀ p, FirmwareMerged given p (a.applyTo p)) ∧
      (∀ p files keys flags, LoadedFrom files (a.applyTo p).keys keys →
        SourceFile.Yields files keys flags (given.sourceFile p.keys) (keys.source flags)) ∧
      ∀ w w', (signAction a : HostAction (StateM Workspace) Unit).runIn w = (.ok (), w') →
        ∃ p, ProfileFrom w.files a.profile p ∧ FirmwareRun (a.applyTo p) a.input w w') ∧
    (∀ a, line.command = some (.signKernel a) →
      ∃ given, CommandLine.Gives arguments "sign-kernel" given ∧
      a.profile = given.lookup "profile" ∧ (∀ p, KernelMerged given p (a.applyTo p)) ∧
      (∀ p files keys flags, LoadedFrom files (a.applyTo p).keys keys →
        SourceFile.Yields files keys flags (given.sourceFile p.keys) (keys.source flags)) ∧
      ∀ w w', (signKernelAction a : HostAction (StateM Workspace) Unit).runIn w = (.ok (), w') →
        ∃ p, ProfileFrom w.files a.profile p ∧ KernelRun (a.applyTo p) a.input w) := by
  constructor
  · intro a hcommand
    obtain ⟨given, gives, profile, merged⟩ := firmwareMerged_of_parse accepted hcommand
    refine ⟨given, gives, profile, merged, fun p files keys flags loaded => ?_,
      fun w w' => firmwareRun_of_runIn⟩
    rw [← (merged p).source]
    exact loaded.yields flags
  · intro a hcommand
    obtain ⟨given, gives, profile, merged⟩ := kernelMerged_of_parse accepted hcommand
    refine ⟨given, gives, profile, merged, fun p files keys flags loaded => ?_,
      fun w w' => kernelRun_of_runIn⟩
    rw [← (merged p).source]
    exact loaded.yields flags

namespace CommandLine

theorem Gives.unique {arguments : List String} {name name' : String} {given given' : Given}
    (h : Gives arguments name given) (h' : Gives arguments name' given') : given = given' := by
  obtain ⟨_, _, _, hglobals, hform, hgiven⟩ := h
  obtain ⟨_, _, _, hglobals', hform', hgiven'⟩ := h'
  rw [hglobals] at hglobals'
  cases hglobals'
  rw [hform] at hform'
  cases hform'
  rw [hgiven] at hgiven'
  cases hgiven'
  rfl

/-! ### Sample lines -/

def sampleProfile : Profile where
  keys := { KeyPaths.none with dataPrivate := some "data", keyblock := some "chain" }
  firmware := { FirmwareProfile.none with version := some 3, flags := some 5 }
  kernel := .none
  chainExport := some ⟨"dir", "OLD"⟩

/-- A line that names a root key and a version. -/
def sampleArguments : List String :=
  ["sign", "-i", "in", "-o", "out", "--profile", "p", "--root-private", "root", "--fw-version", "7"]

/-- The root key takes the place of the keyblock, and the version that of the profile; key, flags and
exported chains are those of the profile. -/
theorem sample_options_before_profile : ∃ a given,
    parse sampleArguments = some ⟨false, some (.sign a)⟩ ∧ Gives sampleArguments "sign" given ∧
    FirmwareMerged given sampleProfile (a.applyTo sampleProfile) ∧
    given.sourceFile sampleProfile.keys = some (.rootKey "root") ∧
    given.lookup "fw-version" = some "7" ∧ given.lookup "flags" = none := by
  obtain ⟨a, accepted⟩ : ∃ a, parse sampleArguments = some ⟨false, some (.sign a)⟩ := ⟨_, rfl⟩
  obtain ⟨given, gives, -, merged, -, -⟩ := (options_before_profile accepted).1 a rfl
  have sampleGiven : Gives sampleArguments "sign" [("input-file", "in"), ("output-file", "out"),
      ("profile", "p"), ("root-private", "root"), ("fw-version", "7")] :=
    ⟨[], _, _, rfl, rfl, rfl⟩
  obtain rfl := gives.unique sampleGiven
  exact ⟨a, _, accepted, gives, merged sampleProfile, rfl, rfl, rfl⟩

/-- A line that gives an id for the exported chains, and leaves their directory to the profile. -/
def sampleRenamed : List String :=
  ["sign", "-i", "in", "-o", "out", "--profile", "p", "--loemid", "NEW"]

/-- The id is passed over: the chains are written under the one of the profile. -/
theorem export_id_not_overridden : ∃ a given,
    parse sampleRenamed = some ⟨false, some (.sign a)⟩ ∧ Gives sampleRenamed "sign" given ∧
    given.lookup "loemid" = some "NEW" ∧
    (a.applyTo sampleProfile).chainExport.map (·.path .a) = some "dir/vblock_A.OLD" ∧
    ¬ given.Decides "loemid" some (sampleProfile.chainExport.map (·.id))
      ((a.applyTo sampleProfile).chainExport.map (·.id)) := by
  refine ⟨_, [("input-file", "in"), ("output-file", "out"), ("profile", "p"), ("loemid", "NEW")], rfl,
    ⟨[], _, _, rfl, rfl, rfl⟩, rfl, rfl, ?_⟩
  rintro ⟨_, ⟨⟩, renamed⟩
  exact absurd renamed (by decide)

end CommandLine
end VerifiedBoot
