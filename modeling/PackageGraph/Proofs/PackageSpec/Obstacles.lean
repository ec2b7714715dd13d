import PackageGraph.Json.Typed
import PackageGraph.Proofs.Project.Escapes
/-!
# What keeps a description in JSON from being read

Three things do: a framework without a name, flags that are no text, and a version that is none. Reading ends with the
first of them, framework by framework and then among the dependencies for all frameworks, and every description without
them is read, whatever stands elsewhere in it. A framework without a name and a version that is none are reported as
defects of the description; flags that are no text are not.
-/
namespace PackageGraph.PackageSpec.ProjectJson

open Except

/-! ## Obstacles in the order of reading -/

/-- What keeps a description from being read. -/
inductive Obstacle where
  /-- The name of a framework is white space alone. -/
  | namelessFramework (name : String)
  /-- Under a key a dependency has flags that are no text. -/
  | flagsOfWrongKind (dependency key : String)
  /-- The version of a dependency is none. -/
  | unreadableVersion (dependency : String) (reason : VersionError)

/-- The error that an obstacle ends the reading with. -/
def Obstacle.error (path : String) : Obstacle → Error
  | .namelessFramework name => .malformed path (.invalidFramework name)
  | .flagsOfWrongKind _ _ => .fault .notText
  | .unreadableVersion dependency reason => .malformed path (.dependency dependency reason)

/-- Flags are missing, or they are a text. -/
def flagObstacles (dependency : String) (v : Value) (key : String) : List Obstacle :=
  match v.get? key with
  | none | some .null | some (.text _) => []
  | some _ => [.flagsOfWrongKind dependency key]

/-- A version is missing, or its plain form is that of a range. -/
def versionObstacles (dependency : String) : Option Value → List Obstacle
  | none | some .null => []
  | some v =>
    match VersionRange.parse v.plain with
    | .ok _ => []
    | .error reason => [.unreadableVersion dependency reason]

/-- A dependency is its version, or has it among its settings, where the flags count before it. -/
def dependencyObstacles : String × Value → List Obstacle
  | (name, .mapping entries) =>
    flagKeys.flatMap (flagObstacles name (.mapping entries)) ++
      versionObstacles name (Value.get? (.mapping entries) "version")
  | (name, v) => versionObstacles name (some v)

/-- The obstacles in the dependencies of a section; a section of the wrong kind counts as missing. -/
def sectionObstacles (section? : Option Value) : List Obstacle :=
  ((section?.bind Value.members).getD []).flatMap dependencyObstacles

/-- Of a framework without a name nothing else is looked at. -/
def targetObstacles (e : String × Value) : List Obstacle :=
  if Text.isBlankText e.1 then [.namelessFramework e.1] else sectionObstacles (e.2.get? "dependencies")

/-- The obstacles in a description. -/
def obstacles (data : Value) : List Obstacle :=
  (frameworkEntries data).flatMap targetObstacles ++ sectionObstacles (data.get? "dependencies")

/-! ## Reading ends with the first obstacle -/

variable {path name : String}

/-- Reading meets these obstacles, and ends with the first of them. -/
def Meets {α : Type} (path : String) (os : List Obstacle) (x : Except Error α) : Prop :=
  EndsWithFirst (os.map (Obstacle.error path)) x

/-- Nothing keeps flags from being read but that they are there and no text. -/
theorem meets_flags (name : String) (v : Value) (key : String) (default : AssetFlags) :
    Meets path (flagObstacles name v key) (flags v key default) := by
  unfold flagObstacles flags
  cases v.get? key with
  | none => exact .ok _
  | some w =>
    cases w with
    | null => exact .ok _
    | text s => exact .ok _
    | _ => exact .error _

/-- Nothing keeps a range from being read but that it is written and cannot be parsed. -/
theorem meets_range (name : String) (v? : Option Value) :
    Meets path (versionObstacles name v?) (range path name v?) := by
  fun_cases versionObstacles name v? with
  | case1 => exact .ok _
  | case2 => exact .ok _
  | case3 v hnull r hparse =>
    rw [range, hparse]
    · exact .ok r
    · exact hnull
  | case4 v hnull reason hparse =>
    rw [range, hparse]
    · exact .error _
    · exact hnull

/-- Steps in sequence meet the obstacles of the first before those of the second. -/
theorem Meets.bind {α β : Type} {os later : List Obstacle} {x : Except Error α} {f : α → Except Error β}
    (hx : Meets path os x) (hf : ∀ a, Meets path later (f a)) : Meets path (os ++ later) (x >>= f) := by
  unfold Meets
  rw [List.map_append]
  exact EndsWithFirst.bind hx hf

/-- After the last step nothing is left to meet. -/
theorem Meets.bind_pure {α β : Type} {os : List Obstacle} {x : Except Error α} (hx : Meets path os x) (f : α → β) :
    Meets path os (x >>= fun a => pure (f a)) := by
  have hlast : Meets path (os ++ []) (x >>= fun a => pure (f a)) := hx.bind fun a => .ok (f a)
  rwa [List.append_nil] at hlast

theorem Meets.map {α β : Type} {os : List Obstacle} {x : Except Error α} (hx : Meets path os x) (f : α → β) :
    Meets path os (x.map f) := EndsWithFirst.map hx f

/-- Reading a list meets the obstacles of its elements in order. -/
theorem meets_mapM {α β : Type} {os : α → List Obstacle} {f : α → Except Error β} (xs : List α)
    (hf : ∀ x, Meets path (os x) (f x)) : Meets path (xs.flatMap os) (xs.mapM f) := by
  unfold Meets
  rw [List.map_flatMap]
  exact EndsWithFirst.mapM xs hf

/-- The flags of a dependency are read one key after the other, and then its version. -/
theorem meets_detailed (v : Value) :
    Meets path (flagKeys.flatMap (flagObstacles name v) ++ versionObstacles name (v.get? "version"))
      (detailed path name v) := by
  simp only [flagKeys, List.flatMap_cons, List.flatMap_nil, List.append_nil, List.append_assoc]
  -- what is read of a target and a type never stands in the way
  refine (meets_flags name v "include" .all).bind fun included => ?_
  refine (meets_flags name v "exclude" .none).bind fun excluded => ?_
  refine (meets_flags name v "suppressParent" .defaultPrivate).bind fun suppressed => ?_
  exact (meets_range name _).bind_pure _

/-- Reading a dependency meets its own obstacles, in the order in which its parts are read. -/
theorem meets_dependency (e : String × Value) : Meets path (dependencyObstacles e) (dependency path e) := by
  fun_cases dependencyObstacles e with
  | case1 name entries => exact meets_detailed (.mapping entries)
  | case2 name v hplain =>
    have hdependency : dependency path (name, v) = (range path name (some v)).map (Dependency.ofRange name) := by
      rw [dependency]
      exact hplain
    rw [hdependency]
    exact (meets_range name (some v)).map (Dependency.ofRange name)

theorem meets_dependencies (section? : Option Value) :
    Meets path (sectionObstacles section?) (dependencies path section?) :=
  meets_mapM _ meets_dependency

/-- Reading a target meets the obstacles of its framework before those of its dependencies. -/
theorem meets_target (e : String × Value) : Meets path (targetObstacles e) (target path e) := by
  obtain ⟨name, body⟩ := e
  rw [target, targetObstacles]
  cases hname : Moniker.parse? name with
  | none =>
    rw [if_pos (Moniker.parse?_eq_none_iff.1 hname)]
    exact .error _
  | some moniker =>
    have hnamed : ¬ Text.isBlankText name = true := fun hblank => by
      rw [Moniker.parse?_eq_none_iff.2 hblank] at hname
      cases hname
    rw [if_neg hnamed]
    exact (meets_dependencies _).bind_pure _

/-- Reading a description meets the obstacles of the whole, the first of which is the error. -/
theorem meets_read (data : Value) : Meets path (obstacles data) (read name path data) := by
  refine (meets_mapM _ meets_target).bind fun targets => ?_
  exact (meets_dependencies _).bind_pure _

/-- Every obstacle but flags of the wrong kind is reported as a malformed file. -/
theorem Obstacle.error_eq_malformed_iff (o : Obstacle) :
    (∃ defect, o.error path = .malformed path defect) ↔ ∀ dependency key, o ≠ .flagsOfWrongKind dependency key := by
  cases o with
  | namelessFramework name => exact iff_of_true ⟨_, rfl⟩ nofun
  | flagsOfWrongKind dependency key => exact iff_of_false nofun fun h => h dependency key rfl
  | unreadableVersion dependency reason => exact iff_of_true ⟨_, rfl⟩ nofun

/-- A description without obstacles is read, and otherwise the first obstacle decides. So reading gives a specification
or reports a defect of the description exactly if the first obstacle is not that flags are no text. -/
theorem read_or_reported_iff (name path : String) (data : Value) :
    ((∃ s, read name path data = .ok s) ↔ obstacles data = []) ∧
    (∀ e, read name path data = .error e ↔ (obstacles data).head?.map (Obstacle.error path) = some e) ∧
    (((∃ s, read name path data = .ok s) ∨ ∃ defect, read name path data = .error (.malformed path defect)) ↔
      ∀ dependency key, (obstacles data).head? ≠ some (.flagsOfWrongKind dependency key)) := by
  have hmeets : Meets path (obstacles data) (read name path data) := meets_read data
  have hok : (∃ s, read name path data = .ok s) ↔ obstacles data = [] :=
    hmeets.exists_ok_iff.trans List.map_eq_nil_iff
  have herror : ∀ e, read name path data = .error e ↔ (obstacles data).head?.map (Obstacle.error path) = some e := by
    intro e
    rw [hmeets.eq_error_iff, List.head?_map]
  refine ⟨hok, herror, ?_⟩
  simp only [hok, herror]
  cases hobstacles : obstacles data with
  | nil => exact iff_of_true (.inl rfl) nofun
  | cons o os => simpa using o.error_eq_malformed_iff

/-- A description that names the assets of a dependency in a list. -/
def assetsInList : List (String × Json) :=
  [("dependencies", .object [("Serilog", .object
      [("version", .text "2.10.0"), ("include", .list [.text "compile", .text "runtime"])])]),
    ("frameworks", .object [("net48", .object [])])]

/-- A list of assets is no text, and not reported. -/
theorem not_read_or_reported : ¬ ∀ (members : List (String × Json)) (data : Value),
    (Json.object members).typed = .ok data → ∀ name path, (∃ s, read name path data = .ok s) ∨
      ∃ defect, read name path data = .error (.malformed path defect) := by
  intro h
  have hread : read "App" "/src/project.json" (.ofMembers
      [("dependencies", .ofMembers [("Serilog", .ofMembers
          [("version", .text "2.10.0"), ("include", .list [.text "compile", .text "runtime"])])]),
        ("frameworks", .ofMembers [("net48", .ofMembers [])])]) = .error (.fault .notText) := rfl
  obtain ⟨s, hs⟩ | ⟨defect, hdefect⟩ := h assetsInList _ rfl "App" "/src/project.json"
  · cases hread.symm.trans hs
  · cases hread.symm.trans hdefect

end PackageGraph.PackageSpec.ProjectJson
