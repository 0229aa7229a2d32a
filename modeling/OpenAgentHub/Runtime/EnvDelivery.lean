import OpenAgentHub.Lib.Lexical
import OpenAgentHub.Runtime.Container

namespace Runtime

section Docker

def switches : List String := ["--interactive", "--rm", "--read-only"]

/-- The options of `docker run` among the arguments, each with its value, up to the image. -/
def options : List String → List (String × String)
  | [] => []
  | word :: rest =>
    if word.toList.head? ≠ some '-' then []
    else if word ∈ switches then options rest
    else
      match rest with
      | [] => []
      | value :: rest => (word, value) :: options rest

/-- `NAME=VALUE`, split at the first equals sign. -/
def assignment (text : String) : Option (String × String) :=
  match text.toList.dropWhile (· ≠ '=') with
  | [] => none
  | _ :: value => some (String.ofList (text.toList.takeWhile (· ≠ '=')), String.ofList value)

def valuesOf (flag : String) (args : List String) : List String :=
  ((options args).filter (·.1 = flag)).map Prod.snd

/-- What `docker run` assigns: the lines of the env-files, then the values of `--env`. -/
def assigned (file : Option (String × String)) (args : List String) : List (String × String) :=
  ((valuesOf "--env-file" args).flatMap fun path =>
    ((file.filter (·.1 = path)).elim [] fun file => (Text.split '\n' file.2).filterMap assignment)) ++
  (valuesOf "--env" args).filterMap assignment

/-- The variables of the container: of two assignments to one name the later one counts. -/
def delivered (file : Option (String × String)) (args : List String) : Record String :=
  Record.setAll {} (assigned file (args.drop 1))

/-- `[A-Za-z_][A-Za-z0-9_]*`. -/
def ValidName (name : String) : Prop :=
  name.toList.head?.any (fun char => char.isAlpha || char == '_') = true ∧
    ∀ char ∈ name.toList, (char.isAlphanum || char == '_') = true

end Docker

section Reading

variable {flag word : String} {rest : List String}

theorem valuesOf_switch (switch : word ∈ switches) : valuesOf flag (word :: rest) = valuesOf flag rest := by
  have dash : word.toList.head? = some '-' := by
    simp only [switches, List.mem_cons, List.not_mem_nil, or_false] at switch
    rcases switch with rfl | rfl | rfl <;> rfl
  unfold valuesOf
  rw [options.eq_def]
  dsimp only
  rw [if_neg (not_not.mpr dash), if_pos switch]

theorem options_flag (dash : word.toList.head? = some '-') (takes : word ∉ switches) (value : String) :
    options (word :: value :: rest) = (word, value) :: options rest := by
  rw [options, if_neg (not_not.mpr dash), if_neg takes]

theorem valuesOf_other (dash : word.toList.head? = some '-') (takes : word ∉ switches) (other : word ≠ flag)
    (value : String) : valuesOf flag (word :: value :: rest) = valuesOf flag rest := by
  unfold valuesOf
  rw [options_flag dash takes, List.filter_cons_of_neg (by simpa using other)]

theorem valuesOf_same (dash : flag.toList.head? = some '-') (takes : flag ∉ switches) (value : String) :
    valuesOf flag (flag :: value :: rest) = value :: valuesOf flag rest := by
  unfold valuesOf
  rw [options_flag dash takes, List.filter_cons_of_pos (by simp), List.map_cons]

theorem valuesOf_stop (plain : word.toList.head? ≠ some '-') : valuesOf flag (word :: rest) = [] := by
  unfold valuesOf
  rw [options.eq_def]
  dsimp only
  rw [if_pos plain]
  rfl

theorem valuesOf_others (dash : word.toList.head? = some '-') (takes : word ∉ switches) (other : word ≠ flag)
    (values : List String) : valuesOf flag ((values.flatMap fun value => [word, value]) ++ rest) = valuesOf flag rest := by
  induction values with
  | nil => rfl
  | cons value values ih =>
    rw [List.flatMap_cons, List.append_assoc, List.cons_append, List.cons_append, List.nil_append,
      valuesOf_other dash takes other, ih]

theorem valuesOf_own (dash : flag.toList.head? = some '-') (takes : flag ∉ switches) (values : List String) :
    valuesOf flag ((values.flatMap fun value => [flag, value]) ++ rest) = values ++ valuesOf flag rest := by
  induction values with
  | nil => rfl
  | cons value values ih =>
    rw [List.flatMap_cons, List.append_assoc, List.cons_append, List.cons_append, List.nil_append,
      valuesOf_same dash takes, ih, List.cons_append]

end Reading

section Sandbox

variable (host : ContainerHost) (spec : SandboxSpec)

theorem image_plain (language : Language) : (resolveImage host language).toList.head? ≠ some '-' := by
  unfold resolveImage
  cases language <;> dsimp only [imageTag] <;> split <;> simp [String.toList_append]

theorem labelFlags_eq : labelFlags host spec =
    ((labels host spec).map fun label => label.1 ++ "=" ++ label.2).flatMap fun value => ["--label", value] := by
  rw [labelFlags, List.flatMap_map]

theorem envFlags_eq : envFlags spec =
    (spec.env.entries.map fun entry => entry.1 ++ "=" ++ entry.2).flatMap fun value => ["--env", value] := by
  rw [envFlags, List.flatMap_map]

theorem valuesOf_baseFlags {flag : String} (kind : flag = "--env" ∨ flag = "--env-file") (rest : List String) :
    valuesOf flag (baseFlags host spec ++ rest) = valuesOf flag rest := by
  unfold baseFlags
  rw [labelFlags_eq]
  rcases kind with rfl | rfl <;> by_cases network : spec.network <;> by_cases granted : "filesystem" ∈ spec.granted
  all_goals
    simp only [network, granted, if_true, if_false, Bool.false_eq_true, List.append_assoc, List.cons_append, List.nil_append]
    simp (disch := decide) only [valuesOf_switch, valuesOf_other, valuesOf_others]

theorem valuesOf_mounts {flag : String} (kind : flag = "--env" ∨ flag = "--env-file") (command : String) :
    valuesOf flag (mountFlags spec ++ (volumeFlags host spec ++
      [resolveImage host spec.language, "/bin/sh", "-c", resolveCommand spec command])) = [] := by
  unfold mountFlags volumeFlags
  simp only [List.cons_append, List.nil_append]
  rcases kind with rfl | rfl
  all_goals
    simp (disch := decide) only [valuesOf_other]
    exact valuesOf_stop (image_plain host spec.language)

theorem valuesOf_env_plain (command : String) :
    valuesOf "--env" ((buildRunArgs host spec command none).drop 1) =
      spec.env.entries.map fun entry => entry.1 ++ "=" ++ entry.2 := by
  unfold buildRunArgs
  dsimp only
  simp only [List.append_assoc, List.cons_append, List.nil_append, List.drop_succ_cons, List.drop_zero]
  rw [valuesOf_switch (by decide), valuesOf_baseFlags host spec (.inl rfl), envFlags_eq, valuesOf_own rfl (by decide),
    valuesOf_mounts host spec (.inl rfl), List.append_nil]

theorem valuesOf_file_plain (command : String) :
    valuesOf "--env-file" ((buildRunArgs host spec command none).drop 1) = [] := by
  unfold buildRunArgs
  dsimp only
  simp only [List.append_assoc, List.cons_append, List.nil_append, List.drop_succ_cons, List.drop_zero]
  rw [valuesOf_switch (by decide), valuesOf_baseFlags host spec (.inr rfl), envFlags_eq,
    valuesOf_others rfl (by decide) (by decide), valuesOf_mounts host spec (.inr rfl)]

theorem valuesOf_env_filed (command path : String) :
    valuesOf "--env" ((buildRunArgs host spec command (some path)).drop 1) = [] := by
  unfold buildRunArgs
  dsimp only
  simp only [List.append_assoc, List.cons_append, List.nil_append, List.drop_succ_cons, List.drop_zero]
  rw [valuesOf_switch (by decide), valuesOf_baseFlags host spec (.inl rfl), valuesOf_other rfl (by decide) (by decide),
    valuesOf_mounts host spec (.inl rfl)]

theorem valuesOf_file_filed (command path : String) :
    valuesOf "--env-file" ((buildRunArgs host spec command (some path)).drop 1) = [path] := by
  unfold buildRunArgs
  dsimp only
  simp only [List.append_assoc, List.cons_append, List.nil_append, List.drop_succ_cons, List.drop_zero]
  rw [valuesOf_switch (by decide), valuesOf_baseFlags host spec (.inr rfl), valuesOf_same rfl (by decide),
    valuesOf_mounts host spec (.inr rfl)]

end Sandbox

section Assignments

theorem ValidName.not_mem {name : String} (valid : ValidName name) {char : Char}
    (special : (char.isAlphanum || char == '_') = false) : char ∉ name.toList := by
  intro listed
  rw [valid.2 char listed] at special
  cases special

theorem assignment_pair {name : String} (valid : ValidName name) (value : String) :
    assignment (name ++ "=" ++ value) = some (name, value) := by
  have plain : ∀ char ∈ name.toList, decide (char ≠ '=') = true := by
    intro char listed
    apply decide_eq_true
    rintro rfl
    exact valid.not_mem (by decide) listed
  have text : (name ++ "=" ++ value).toList = name.toList ++ '=' :: value.toList := by
    rw [String.toList_append, String.toList_append, List.append_assoc]
    rfl
  unfold assignment
  rw [text, List.dropWhile_append_of_pos plain, List.takeWhile_append_of_pos plain]
  simp

theorem assignments_pairs {entries : List (String × String)} (valid : ∀ entry ∈ entries, ValidName entry.1) :
    (entries.map fun entry => entry.1 ++ "=" ++ entry.2).filterMap assignment = entries := by
  rw [List.filterMap_map]
  have each : ∀ entry ∈ entries, (assignment ∘ fun entry => entry.1 ++ "=" ++ entry.2) entry = some entry :=
    fun entry listed => assignment_pair (valid entry listed) entry.2
  rw [List.filterMap_congr each]
  exact List.filterMap_some

theorem assignment_value {text name value : String} (found : assignment text = some (name, value)) {char : Char}
    (listed : char ∈ value.toList) : char ∈ text.toList := by
  unfold assignment at found
  split at found
  · cases found
  · rename_i equals rest split
    cases found
    rw [String.toList_ofList] at listed
    apply (List.dropWhile_sublist (· ≠ '=')).subset
    rw [split]
    exact List.mem_cons_of_mem equals listed

end Assignments

section Delivery

variable (host : ContainerHost) (spec : SandboxSpec) (dir command : String)

def SecretLine (entry : String × String) : Prop := namesSecret entry.1 = true ∧ '\n' ∉ entry.2.toList

def DeliversEnv : Prop :=
  ∀ name, (delivered (runArgs host spec dir command).2 (runArgs host spec dir command).1).get name = spec.env.get name

theorem get_entries (entries : List (String × String)) (distinct : (entries.map Prod.fst).Nodup) (name : String) :
    (Record.setAll {} entries : Record String).get name = entries.lookup name := by
  rw [Record.get_setAll distinct]
  exact Option.or_none

theorem assigned_plain (valid : ∀ entry ∈ spec.env.entries, ValidName entry.1) (plain : secretEntries spec = []) :
    assigned (runArgs host spec dir command).2 ((runArgs host spec dir command).1.drop 1) = spec.env.entries := by
  unfold runArgs writeEnvFile assigned
  rw [if_pos plain]
  dsimp only [Option.map]
  rw [valuesOf_file_plain, valuesOf_env_plain, assignments_pairs valid]
  rfl

theorem assigned_filed (kept : secretEntries spec ≠ []) :
    assigned (runArgs host spec dir command).2 ((runArgs host spec dir command).1.drop 1) =
      (Text.split '\n' (Text.join "\n" ((secretEntries spec).map fun entry => entry.1 ++ "=" ++ entry.2))).filterMap
        assignment := by
  unfold runArgs writeEnvFile assigned
  rw [if_neg kept]
  dsimp only [Option.map]
  rw [valuesOf_file_filed, valuesOf_env_filed]
  simp [Option.filter]

theorem delivers_plain (valid : ∀ entry ∈ spec.env.entries, ValidName entry.1) (plain : secretEntries spec = []) :
    DeliversEnv host spec dir command := by
  intro name
  unfold delivered
  rw [assigned_plain host spec dir command valid plain, get_entries _ spec.env.distinct]
  rfl

theorem assigned_lines (valid : ∀ entry ∈ spec.env.entries, ValidName entry.1) (kept : secretEntries spec ≠ [])
    (lines : ∀ entry ∈ secretEntries spec, '\n' ∉ entry.2.toList) :
    assigned (runArgs host spec dir command).2 ((runArgs host spec dir command).1.drop 1) = secretEntries spec := by
  have named : ∀ entry ∈ secretEntries spec, ValidName entry.1 := fun entry listed => valid entry (List.mem_of_mem_filter listed)
  have written : ∀ line ∈ (secretEntries spec).map fun entry => entry.1 ++ "=" ++ entry.2, '\n' ∉ line.toList := by
    intro line listed
    obtain ⟨entry, present, rfl⟩ := List.mem_map.mp listed
    have quiet : '\n' ∉ entry.1.toList := (named entry present).not_mem (by decide)
    simp [String.toList_append, quiet, lines entry present]
  have split := Text.split_join written (by simpa using kept)
  rw [assigned_filed host spec dir command kept]
  change (Text.split '\n' (Text.join (String.ofList ['\n']) _)).filterMap assignment = _
  rw [split, assignments_pairs named]

theorem assigned_value (kept : secretEntries spec ≠ []) {name value : String}
    (found : (name, value) ∈ assigned (runArgs host spec dir command).2 ((runArgs host spec dir command).1.drop 1)) :
    '\n' ∉ value.toList := by
  rw [assigned_filed host spec dir command kept] at found
  obtain ⟨line, listed, parsed⟩ := List.mem_filterMap.mp found
  intro breaks
  have inside := assignment_value parsed breaks
  have piece := Text.mem_split.mp listed
  exact ((Lexical.mem_splitOn '\n' '\n' _).mp ⟨line.toList, piece, inside⟩).2 rfl

theorem delivers_filed_iff (valid : ∀ entry ∈ spec.env.entries, ValidName entry.1) (kept : secretEntries spec ≠ []) :
    DeliversEnv host spec dir command ↔ ∀ entry ∈ spec.env.entries, SecretLine entry := by
  constructor
  · intro delivers entry listed
    have found : ∀ entry ∈ spec.env.entries,
        entry ∈ assigned (runArgs host spec dir command).2 ((runArgs host spec dir command).1.drop 1) := by
      intro entry listed
      have same := delivers entry.1
      rw [Record.get_of_mem listed] at same
      exact (Record.mem_of_get_setAll same).resolve_right (by rintro ⟨⟩)
    have lines : ∀ entry ∈ spec.env.entries, '\n' ∉ entry.2.toList :=
      fun entry listed => assigned_value host spec dir command kept (found entry listed)
    have written := assigned_lines host spec dir command valid kept fun entry secret =>
      lines entry (List.mem_of_mem_filter secret)
    have secret := found entry listed
    rw [written] at secret
    exact ⟨(List.mem_filter.mp secret).2, lines entry listed⟩
  · intro secrets name
    have all : secretEntries spec = spec.env.entries :=
      List.filter_eq_self.mpr fun entry listed => (secrets entry listed).1
    have written := assigned_lines host spec dir command valid kept fun entry secret =>
      (secrets entry (List.mem_of_mem_filter secret)).2
    unfold delivered
    rw [written, all, get_entries _ spec.env.distinct]
    rfl

end Delivery

/-- The container gets the variables of the specification exactly when none of them is a secret, or when all
    are and none of their values has a line break. -/
theorem environment_delivered_iff (host : ContainerHost) (spec : SandboxSpec) (dir command : String)
    (valid : ∀ entry ∈ spec.env.entries, ValidName entry.1) :
    DeliversEnv host spec dir command ↔
      (∀ entry ∈ spec.env.entries, namesSecret entry.1 = false) ∨ ∀ entry ∈ spec.env.entries, SecretLine entry := by
  by_cases kept : secretEntries spec = []
  · refine iff_of_true (delivers_plain host spec dir command valid kept) (.inl fun entry listed => ?_)
    have absent := List.filter_eq_nil_iff.mp kept entry listed
    simpa using absent
  · rw [delivers_filed_iff host spec dir command valid kept]
    refine ⟨.inr, fun either => either.resolve_left fun plain => kept ?_⟩
    apply List.filter_eq_nil_iff.mpr
    intro entry listed
    rw [plain entry listed]
    decide

def echoSpec (env : Record String) : SandboxSpec where
  agentDir := "/tmp/agent"
  name := "test/echo"
  version := "1.0.0"
  language := .python
  env := env

def steadyHost : ContainerHost where
  sha256 := fun _ => "9f86d081884c7d659a2feaa0c55ad015a3bf4f1b2b0b822cd15d6c15b0f00a08"

theorem key_delivered :
    DeliversEnv steadyHost
      (echoSpec { entries := [("AGENT_API_KEY", "a=b c"), ("SMTP_PASSWORD", "# \"quoted\""), ("GITHUB_TOKEN", "")] })
      "/tmp/oah-env-1" "run" := by
  refine (environment_delivered_iff _ _ _ _ ?_).mpr (.inr ?_)
  · simp only [echoSpec, List.forall_mem_cons, ValidName, ← List.all_eq_true]
    decide
  · simp only [echoSpec, List.forall_mem_cons, SecretLine]
    decide

/-- Beside a key the name of the agent is lost, and of a key on two lines the second. -/
theorem environment_lost :
    let named := runArgs steadyHost (echoSpec { entries := [("AGENT_NAME", "test/echo"), ("AGENT_API_KEY", "k")] })
      "/tmp/oah-env-1" "run"
    let broken := runArgs steadyHost (echoSpec { entries := [("SSH_KEY", "line\nline")] }) "/tmp/oah-env-1" "run"
    (delivered named.2 named.1).get "AGENT_NAME" = none ∧ (delivered named.2 named.1).get "AGENT_API_KEY" = some "k" ∧
      (delivered broken.2 broken.1).get "SSH_KEY" = some "line" := by
  decide +kernel

end Runtime
