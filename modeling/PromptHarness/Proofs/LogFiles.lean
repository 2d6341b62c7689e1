import PromptHarness.Checker
import PromptHarness.Proofs.Occurrence
import PromptHarness.Proofs.WritablePaths

/-!
# Log files of their own

Tests that run at the same time write their logs next to each other, so each needs a file of its
own.  A test is called after its thread with dots for double colons; where the thread's name has no
dot, the double colons can be put back (`flatMap_colons_dotted`), so no two such names become the
same.  Joined to a directory, different file names without a slash are different paths right below
that directory.
-/

namespace PromptHarness

namespace Path

/-- A name along a path that leads on from where the path has got to. -/
def leadsOn (name : String) : Bool := !(name == "" || name == ".")

theorem leadsOn_empty : leadsOn "" = false := rfl

/-- What tells paths apart: whether they begin at the root, and the names along them.  An empty name
counts for nothing, nor does a `.` unless the path begins with it. -/
def parts (path : String) : List String :=
  let onward := (names path).filter leadsOn
  if isAbsolute path then "/" :: onward
  else if (names path).head? = some "." then "." :: onward
  else onward

theorem isAbsolute_join_plain {base name : String} (hbase : base ≠ "")
    (hplain : '/' ∉ name.toList) : isAbsolute (join base name) = isAbsolute base := by
  obtain ⟨slash, -, hjoin⟩ := exists_join hbase hplain
  have hfilled : base.toList ≠ [] := fun hempty => hbase (String.toList_eq_nil_iff.mp hempty)
  obtain ⟨first, rest, hchars⟩ := List.exists_cons_of_ne_nil hfilled
  simp [isAbsolute, hjoin, hchars]

/-- Only the empty path has no name but the empty one. -/
theorem eq_empty_of_names {path : String} (hnames : names path = [""]) : path = "" := by
  have hjoined := Text.intercalate_stretches '/' path.toList
  obtain ⟨stretch, hstretches, hempty⟩ := List.map_eq_singleton_iff.mp hnames
  rw [hstretches, String.ofList_eq_empty_iff.mp hempty] at hjoined
  exact String.toList_eq_nil_iff.mp hjoined.symm

/-- A file named in a directory is one part behind those of the directory. -/
theorem parts_join (base : String) {name : String} (hfilled : name ≠ "") (hhere : name ≠ ".")
    (hplain : '/' ∉ name.toList) : parts (join base name) = parts base ++ [name] := by
  have hleads : leadsOn name = true := by simp [leadsOn, hfilled, hhere]
  by_cases hbase : base = ""
  · subst hbase
    have hjoin : join "" name = name := by simp [join]
    rw [hjoin, parts, names_eq_singleton hplain, isAbsolute_eq_false hplain]
    simp [hleads, hhere, parts, leadsOn_empty, isAbsolute, names_eq_singleton]
  · obtain ⟨front, hfront, hnames⟩ := exists_names_join hbase
    have hbegun : front ≠ [] := by
      rintro rfl
      rcases hfront with hnone | halone
      · exact Text.stretches_ne_nil '/' base.toList (List.map_eq_nil_iff.mp hnone)
      · exact hbase (eq_empty_of_names halone)
    have hhead : (front ++ [name]).head? = (names base).head? := by
      rcases hfront with hsame | hslash
      · rw [hsame, List.head?_append_of_ne_nil front hbegun]
      · rw [hslash, List.head?_append_of_ne_nil front hbegun,
          List.head?_append_of_ne_nil front hbegun]
    rw [parts, parts, hnames name hplain, isAbsolute_join_plain hbase hplain, hhead]
    have honward : (front ++ [name]).filter leadsOn = (names base).filter leadsOn ++ [name] := by
      rcases hfront with hsame | hslash
      · simp [hsame, hleads]
      · simp [hslash, hleads, leadsOn_empty]
    simp only [honward]
    split
    · rfl
    · split <;> rfl

end Path

namespace Checker

/-! ## Names with dots -/

/-- A character in a name whose double colons have become dots, as it was before. -/
def colons (char : Char) : List Char := if char = '.' then [':', ':'] else [char]

/-- The double colons can be put back where there was no dot. -/
theorem flatMap_colons_dotted {name : List Char} (hplain : '.' ∉ name) :
    (dotted name).flatMap colons = name := by
  induction name using dotted.induct with
  | case1 rest ih =>
      simp only [List.mem_cons, not_or] at hplain
      rw [dotted, List.flatMap_cons, ih hplain.2.2]
      rfl
  | case2 char rest hother ih =>
      simp only [List.mem_cons, not_or] at hplain
      rw [dotted, List.flatMap_cons, ih hplain.2, colons, if_neg (Ne.symm hplain.1)]
      · rfl
      · exact hother
  | case3 => rfl

theorem dotted_injective {left right : List Char} (hleft : '.' ∉ left) (hright : '.' ∉ right)
    (hsame : dotted left = dotted right) : left = right := by
  rw [← flatMap_colons_dotted hleft, hsame, flatMap_colons_dotted hright]

theorem not_mem_dotted {char : Char} {name : List Char} (hdot : char ≠ '.')
    (habsent : char ∉ name) : char ∉ dotted name := by
  induction name using dotted.induct with
  | case1 rest ih =>
      simp only [List.mem_cons, not_or] at habsent
      simp [dotted, hdot, ih habsent.2.2]
  | case2 other rest hother ih =>
      simp only [List.mem_cons, not_or] at habsent
      rw [dotted]
      · simp [habsent.1, ih habsent.2]
      · exact hother
  | case3 => exact List.not_mem_nil

/-- A name that begins with a colon when it has its dots began with one before. -/
theorem head?_of_dotted {name : List Char} (hhead : (dotted name).head? = some ':') :
    ∃ rest, name = ':' :: rest := by
  induction name using dotted.induct with
  | case1 rest => exact ⟨_, rfl⟩
  | case2 char rest hother =>
      rw [dotted] at hhead
      · cases hhead
        exact ⟨rest, rfl⟩
      · exact hother
  | case3 => cases hhead

/-- No double colon is left, nor does a new one come to be. -/
theorem not_infix_dotted (name : List Char) : ¬[':', ':'] <:+: dotted name := by
  induction name using dotted.induct with
  | case1 rest ih =>
      rw [dotted, List.infix_cons_iff, List.cons_prefix_cons]
      rintro (⟨hcolon, -⟩ | hlater)
      · exact absurd hcolon (by decide)
      · exact ih hlater
  | case2 char rest hother ih =>
      rw [dotted]
      · rw [List.infix_cons_iff, List.cons_prefix_cons]
        rintro (⟨rfl, hnext⟩ | hlater)
        · obtain ⟨more, hmore⟩ := hnext
          obtain ⟨behind, rfl⟩ := head?_of_dotted (by rw [← hmore]; rfl : _ = some ':')
          exact hother behind rfl rfl
        · exact ih hlater
      · exact hother
  | case3 => simp [dotted]

theorem logFile_parts (directory : String) {test : String} (hplain : '/' ∉ test.toList) :
    Path.parts (logFile directory test) =
      Path.parts directory ++ ["valgrind-" ++ test ++ ".log"] := by
  apply Path.parts_join
  · intro hempty
    simpa using congrArg String.toList hempty
  · intro hhere
    simpa using congrArg String.toList hhere
  · simpa using hplain

/-! ## What tests are called -/

/-- A name of a thread that runs a test, and that can be part of a file name. -/
structure IsTestThread (thread : String) : Prop where
  other : thread ≠ "main"
  undotted : '.' ∉ thread.toList
  inside : '/' ∉ thread.toList

theorem IsTestThread.testName {thread : String} (hthread : IsTestThread thread)
    (process : String) :
    testName (some thread) process = String.ofList (dotted thread.toList) := by
  simp [Checker.testName, hthread.other]

theorem IsTestThread.plain_testName {thread : String} (hthread : IsTestThread thread)
    (process : String) : '/' ∉ (Checker.testName (some thread) process).toList := by
  rw [hthread.testName, String.toList_ofList]
  exact not_mem_dotted (by decide) hthread.inside

/-- What it means that no two tests write to one log file. -/
structure SeparatesLogs : Prop where
  /-- The log of a test is a file right in the directory. -/
  inside : ∀ (directory thread : String) (process : Nat), IsTestThread thread →
    '/' ∉ (testName (some thread) (toString process)).toList ∧
      Path.parts (logFile directory (testName (some thread) (toString process))) =
        Path.parts directory ++
          ["valgrind-" ++ testName (some thread) (toString process) ++ ".log"]
  /-- Tests on threads with different names have different log files. -/
  apart : ∀ (directory left right : String) (process other : Nat), IsTestThread left →
    IsTestThread right → left ≠ right →
      Path.parts (logFile directory (testName (some left) (toString process))) ≠
        Path.parts (logFile directory (testName (some right) (toString other)))
  /-- What a test is called has no double colon, whatever its thread is called, if anything. -/
  joined : ∀ (thread : Option String) (process : Nat),
    Text.holds "::".toList (testName thread (toString process)).toList = false

/-- A process has a number, so the name of a test that runs outside of threads has no colon. -/
theorem not_mem_processName (process : Nat) : ':' ∉ ("pid" ++ toString process).toList := by
  have hdigits : ':' ∉ Nat.toDigits 10 process := fun hcolon =>
    absurd (Nat.isDigit_of_mem_toDigits (by decide) (by decide) hcolon) (by decide)
  simpa [Nat.toList_repr] using hdigits

theorem not_holds_colons {text : List Char} (habsent : ¬[':', ':'] <:+: text) :
    Text.holds "::".toList text = false := by
  rw [Bool.eq_false_iff, Ne, Text.holds_iff_isInfix]
  exact habsent

/-- Tests never share a log file. -/
theorem logFile_separates : SeparatesLogs where
  inside := by
    intro directory thread process hthread
    have hplain := hthread.plain_testName (toString process)
    exact ⟨hplain, logFile_parts directory hplain⟩
  apart := by
    intro directory left right process other hleft hright hne hsame
    rw [logFile_parts directory (hleft.plain_testName _),
      logFile_parts directory (hright.plain_testName _)] at hsame
    have hfile := List.singleton_inj.mp (List.append_cancel_left hsame)
    rw [String.append_left_inj, String.append_right_inj, hleft.testName, hright.testName] at hfile
    have hdotted := String.ofList_injective hfile
    exact hne (String.toList_inj.mp (dotted_injective hleft.undotted hright.undotted hdotted))
  joined := by
    intro thread process
    have hprocess : Text.holds "::".toList ("pid" ++ toString process).toList = false :=
      not_holds_colons fun hfound => not_mem_processName process (hfound.subset List.mem_cons_self)
    cases thread with
    | none => exact hprocess
    | some name =>
        rw [testName]
        split
        · exact hprocess
        · apply not_holds_colons
          rw [String.toList_ofList]
          exact not_infix_dotted name.toList

example : logFile "logs/" (testName (some "create::twice:::again") "7") =
    "logs/valgrind-create.twice.:again.log" := by decide

end Checker

end PromptHarness
