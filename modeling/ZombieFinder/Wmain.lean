import ZombieFinder.Report
import ZombieFinder.FullThreadReport
import Mathlib.Data.List.DropRight

/-
  ZombieFinder.Wmain — the program: `wmain`'s command line, its checks, and the report it runs
  (src/unnamed/part_001).

  `wmain` parses `argv[1..]` switch by switch (`_wcsicmp`, so any case the CRT's `towlower`
  folds to the name), taking the next argument verbatim as the value of `-secs` (through
  `swscanf_s(…, "%llu", …)`), `-out` and `-diag`; anything else ends in `Usage`. It then rejects
  `-threads` with any other setting than `-out`, strips the trailing separators of the `-diag`
  directory and checks that it is one, opens the `-out` file, and runs either `FullThreadReport`
  or `ZombieOwners::Update` and the summary or details output the switches select. The CRT's
  and the system's answers are one `WmainEnv`; `Update` runs with `fuel`.

  - `parseArgs_commandLine`: every settings record whose output file name is empty without
    `-out` (as every accepted command line leaves it) is read back from the command line that
    spells it out (each switch once, in the usage text's order): each switch is recognised as
    itself and as no other, and values are taken verbatim even when they look like switches.

  Along the way: the option loop reads left to right with no lookahead past a switch's value
  (`parseArgs_append`), a `-diag` argument made only of path separators is rejected as not a
  directory (`wmain_rejects_separator_diag`), and a return after a report carries the report the
  switches select (`wmain_reports`).
-/

namespace ZombieFinder

/-- `wmain`'s settings, as the option loop leaves them. -/
structure Options where
  bDetails : Bool
  bCsv : Bool
  bThreadsReport : Bool
  nExitAgeInSecs : UInt64
  bOutToFile : Bool
  sOutFile : String
  sDiagDirectory : String
  deriving DecidableEq, Repr

/-- The settings' initial values. -/
def Options.default : Options := ⟨false, false, false, 3, false, "", ""⟩

/-- The CRT's and the system's answers to `wmain`: `IsWow64Process`, `swscanf_s(arg, "%llu", …)`
    (`none` unless it returns 1), whether `GetFileAttributesW` finds a directory, whether
    `CreateFileOutput` opens the file, `GetSystemTimeAsFileTime`, and the answers to the two
    reports. -/
structure WmainEnv where
  bWow64Process : Bool
  swscanfLlu : String → Option UInt64
  isDirectory : String → Bool
  createFileOutput : String → Bool
  ulNow : UInt64
  update : UpdateEnv
  threads : ThreadReportAnswers

/-- `0 == _wcsicmp(szSwitch, arg)`. -/
def isSwitch (lib : Lib) (szSwitch arg : String) : Bool :=
  decide (wcsicmp lib.towlower (wideChars szSwitch) (wideChars arg) = .eq)

/-- The option loop over `argv[1..]`; `Usage(szError, argv[0])` is `.error szError`. -/
def parseArgs (lib : Lib) (swscanfLlu : String → Option UInt64) : List String → Options → Except (Option String) Options
  | [], o => .ok o
  | arg :: rest, o =>
    if isSwitch lib "-details" arg then parseArgs lib swscanfLlu rest { o with bDetails := true }
    else if isSwitch lib "-csv" arg then parseArgs lib swscanfLlu rest { o with bCsv := true }
    else if isSwitch lib "-threads" arg then parseArgs lib swscanfLlu rest { o with bThreadsReport := true }
    else if isSwitch lib "-secs" arg then
      match rest with
      | [] => .error (some "Missing arg for -secs")
      | v :: rest =>
        match swscanfLlu v with
        | none => .error (some "Invalid arg for -secs")
        | some n => parseArgs lib swscanfLlu rest { o with nExitAgeInSecs := n }
    else if isSwitch lib "-out" arg then
      match rest with
      | [] => .error (some "Missing arg for -out")
      | v :: rest => parseArgs lib swscanfLlu rest { o with bOutToFile := true, sOutFile := v }
    else if isSwitch lib "-diag" arg then
      match rest with
      | [] => .error (some "Missing arg for -diag")
      | v :: rest => parseArgs lib swscanfLlu rest { o with sDiagDirectory := v }
    else .error (if arg = "-?" ∨ arg = "/?" then none else some "Unrecognized command-line option")

/-- `bThreadsReport && (bDetails || bCsv || 3 != nExitAgeInSecs || sDiagDirectory.length() > 0)`. -/
def invalidCombination (o : Options) : Bool :=
  o.bThreadsReport && (o.bDetails || o.bCsv || o.nExitAgeInSecs != 3 || decide (0 < o.sDiagDirectory.length))

def isPathSeparator (c : Char) : Bool := c == '\\' || c == '/'

/-- `while (EndsWith(sDiagDirectory, '\\') || EndsWith(sDiagDirectory, '/'))` dropping the last
    character. -/
def stripTrailingSeparators (s : String) : String := ⟨s.toList.rdropWhile isPathSeparator⟩

/-- What `wmain` wrote once its switches were accepted. -/
inductive WmainReport where
  | threads (r : Except ErrorInfo Unit × ReportEnum)
  | summary (r : SummaryReport)
  | details (lines : List ZombieLine)
  /-- "Error: " and `sErrorInfo`. -/
  | updateFailed (sErrorInfo : ErrorInfo)

/-- How `wmain` ends. -/
inductive WmainResult where
  /-- "Wrong version. You need to run the 64-bit version of this program.", `exit(-2)`. -/
  | wrongVersion
  /-- `Usage(szError, argv[0])`: the error line unless `NULL`, the syntax, `exit(-1)`. -/
  | usage (szError : Option String)
  /-- "Cannot open output file " and the name, then `Usage(NULL, argv[0])`. -/
  | cannotOpenOutputFile (sOutFile : String)
  /-- `return iExitCode`, the report written to `sOutFile` or to stdout. -/
  | returned (iExitCode : Int) (sOutFile : Option String) (report : WmainReport)

/-- The report of an accepted command line. -/
def runReport (lib : Lib) (env : WmainEnv) (fuel : Nat) (o : Options) : Option (Int × WmainReport) :=
  if o.bThreadsReport then
    some (match (fullThreadReport env.threads).1 with
      | .ok () => 0
      | .error _ => -1, .threads (fullThreadReport env.threads))
  else (ZombieOwners.update lib env.update o.nExitAgeInSecs fuel ZombieOwners.empty).map fun r =>
    match r.ret with
    | .ok () => (0, if !o.bDetails then .summary (if !o.bCsv then outputSummary r.obj else outputSummaryCsv r.obj)
        else .details (if !o.bCsv then outputDetails r.obj env.ulNow else outputDetailsCsv r.obj env.ulNow))
    | .error e => (-1, .updateFailed e)

/-- `wmain(argc, argv)`, with `argv[1..]` as `args`. -/
def wmain (lib : Lib) (env : WmainEnv) (fuel : Nat) (args : List String) : Option WmainResult :=
  if env.bWow64Process then some .wrongVersion
  else match parseArgs lib env.swscanfLlu args .default with
    | .error szError => some (.usage szError)
    | .ok o =>
      if invalidCombination o then some (.usage (some "Invalid combination of switches"))
      else if 0 < o.sDiagDirectory.length ∧ !env.isDirectory (stripTrailingSeparators o.sDiagDirectory) then
        some (.usage (some "-diag argument is not a directory"))
      else if o.bOutToFile ∧ !env.createFileOutput o.sOutFile then some (.cannotOpenOutputFile o.sOutFile)
      else (runReport lib env fuel o).map fun r =>
        .returned r.1 (if o.bOutToFile then some o.sOutFile else none) r.2

/-! ## The option loop -/

/-- The `wchar_t`s the switch names are made of: `-` and the lowercase ASCII letters. -/
def isSwitchChar (u : WChar) : Bool := u == 45 || (97 ≤ u && u ≤ 122)

/-- The switches the option loop tests for, in its order. -/
def switchNames : List String := ["-details", "-csv", "-threads", "-secs", "-out", "-diag"]

/-- The command line that spells `o` out, each switch once in the usage text's order, with `v`
    as the `-secs` argument. -/
def commandLine (v : String) (o : Options) : List String :=
  (if o.bDetails then ["-details"] else []) ++ (if o.bCsv then ["-csv"] else []) ++
    (if o.bThreadsReport then ["-threads"] else []) ++ ["-secs", v] ++
    (if o.bOutToFile then ["-out", o.sOutFile] else []) ++ ["-diag", o.sDiagDirectory]

section Parse

variable {lib : Lib} {swscanfLlu : String → Option UInt64}

theorem isSwitch_iff (a b : String) : isSwitch lib a b = true ↔
    (wideChars a).map (fun u => (lib.towlower u).toNat) = (wideChars b).map (fun u => (lib.towlower u).toNat) := by
  rw [isSwitch, decide_eq_true_iff]
  exact (wcsicmp_spec lib.towlower _ _).2

theorem isSwitch_self (s : String) : isSwitch lib s s = true := (isSwitch_iff s s).mpr rfl

/-- A `towlower` that leaves `-` and the lowercase letters alone compares names made of them
    as they are. -/
theorem isSwitch_names (hl : ∀ u, isSwitchChar u = true → lib.towlower u = u) {a b : String}
    (ha : ∀ u ∈ wideChars a, isSwitchChar u = true) (hb : ∀ u ∈ wideChars b, isSwitchChar u = true) :
    isSwitch lib a b = decide ((wideChars a).map UInt16.toNat = (wideChars b).map UInt16.toNat) := by
  have hfix : ∀ l : List WChar, (∀ u ∈ l, isSwitchChar u = true) →
      l.map (fun u => (lib.towlower u).toNat) = l.map UInt16.toNat :=
    fun l h => List.map_congr_left fun u hu => by rw [hl u (h u hu)]
  rw [Bool.eq_iff_iff, isSwitch_iff, hfix _ ha, hfix _ hb, decide_eq_true_iff]

/-- Under such a `towlower`, each switch name is recognised as itself and as no other. -/
theorem isSwitch_switchName (hl : ∀ u, isSwitchChar u = true → lib.towlower u = u) {a b : String}
    (ha : a ∈ switchNames) (hb : b ∈ switchNames) : isSwitch lib a b = decide (a = b) := by
  have hn : ∀ s ∈ switchNames, ∀ u ∈ wideChars s, isSwitchChar u = true := by decide
  have hd : ∀ a ∈ switchNames, ∀ b ∈ switchNames,
      decide ((wideChars a).map UInt16.toNat = (wideChars b).map UInt16.toNat) = decide (a = b) := by decide
  rw [isSwitch_names hl (hn a ha) (hn b hb), hd a ha b hb]

/-- A switch the command line has or has not. -/
theorem parseArgs_opt (sw : List String) {f : Options → Options}
    (h : ∀ rest o, parseArgs lib swscanfLlu (sw ++ rest) o = parseArgs lib swscanfLlu rest (f o)) (b : Bool)
    {rest : List String} {o : Options} :
    parseArgs lib swscanfLlu ((if b then sw else []) ++ rest) o =
      parseArgs lib swscanfLlu rest (if b then f o else o) := by
  cases b
  · rfl
  · exact h rest o

/-- The settings an accepted command line leaves have a file name only with `-out`. -/
theorem parseArgs_sOutFile : ∀ (args : List String) (o o' : Options), parseArgs lib swscanfLlu args o = .ok o' →
    (o.bOutToFile = false → o.sOutFile = "") → o'.bOutToFile = false → o'.sOutFile = ""
  | [], _, _, h, hw => by cases h; exact hw
  | arg :: args, o, o', h, hw => by
    rw [parseArgs.eq_def] at h
    simp only at h
    by_cases h1 : isSwitch lib "-details" arg = true
    · rw [if_pos h1] at h; exact parseArgs_sOutFile args _ _ h hw
    rw [if_neg h1] at h
    by_cases h2 : isSwitch lib "-csv" arg = true
    · rw [if_pos h2] at h; exact parseArgs_sOutFile args _ _ h hw
    rw [if_neg h2] at h
    by_cases h3 : isSwitch lib "-threads" arg = true
    · rw [if_pos h3] at h; exact parseArgs_sOutFile args _ _ h hw
    rw [if_neg h3] at h
    by_cases h4 : isSwitch lib "-secs" arg = true
    · rw [if_pos h4] at h
      rcases args with _ | ⟨v, args⟩
      · cases h
      · cases hs : swscanfLlu v <;> simp only [hs] at h
        · cases h
        · exact parseArgs_sOutFile args _ _ h hw
    rw [if_neg h4] at h
    by_cases h5 : isSwitch lib "-out" arg = true
    · rw [if_pos h5] at h
      rcases args with _ | ⟨v, args⟩
      · cases h
      · exact parseArgs_sOutFile args _ _ h nofun
    rw [if_neg h5] at h
    by_cases h6 : isSwitch lib "-diag" arg = true
    · rw [if_pos h6] at h
      rcases args with _ | ⟨v, args⟩
      · cases h
      · exact parseArgs_sOutFile args _ _ h hw
    rw [if_neg h6] at h
    cases h

/-- The option loop reads the command line left to right and carries nothing but the settings:
    an accepted command line followed by more arguments reads them from the settings it left. So
    of two occurrences of a switch, the later one's value is the one kept. -/
theorem parseArgs_append (ys : List String) : ∀ (xs : List String) (o o' : Options),
    parseArgs lib swscanfLlu xs o = .ok o' → parseArgs lib swscanfLlu (xs ++ ys) o = parseArgs lib swscanfLlu ys o'
  | [], _, _, h => by cases h; rfl
  | arg :: args, o, o', h => by
    rw [parseArgs.eq_def] at h
    rw [List.cons_append, parseArgs.eq_def]
    simp only at h ⊢
    by_cases h1 : isSwitch lib "-details" arg = true
    · rw [if_pos h1] at h ⊢; exact parseArgs_append ys args _ _ h
    rw [if_neg h1] at h ⊢
    by_cases h2 : isSwitch lib "-csv" arg = true
    · rw [if_pos h2] at h ⊢; exact parseArgs_append ys args _ _ h
    rw [if_neg h2] at h ⊢
    by_cases h3 : isSwitch lib "-threads" arg = true
    · rw [if_pos h3] at h ⊢; exact parseArgs_append ys args _ _ h
    rw [if_neg h3] at h ⊢
    by_cases h4 : isSwitch lib "-secs" arg = true
    · rw [if_pos h4] at h ⊢
      rcases args with _ | ⟨v, args⟩
      · cases h
      · cases hs : swscanfLlu v <;> simp only [hs, List.cons_append] at h ⊢
        · cases h
        · exact parseArgs_append ys args _ _ h
    rw [if_neg h4] at h ⊢
    by_cases h5 : isSwitch lib "-out" arg = true
    · rw [if_pos h5] at h ⊢
      rcases args with _ | ⟨v, args⟩
      · cases h
      · exact parseArgs_append ys args _ _ h
    rw [if_neg h5] at h ⊢
    by_cases h6 : isSwitch lib "-diag" arg = true
    · rw [if_pos h6] at h ⊢
      rcases args with _ | ⟨v, args⟩
      · cases h
      · exact parseArgs_append ys args _ _ h
    rw [if_neg h6] at h
    cases h

variable (hl : ∀ u, isSwitchChar u = true → lib.towlower u = u) (rest : List String) (o : Options)
include hl

theorem parseArgs_details :
    parseArgs lib swscanfLlu ("-details" :: rest) o = parseArgs lib swscanfLlu rest { o with bDetails := true } := by
  rw [parseArgs.eq_def]
  simp (disch := decide) only [isSwitch_switchName hl, decide_eq_true_eq, if_pos, if_neg]

theorem parseArgs_csv :
    parseArgs lib swscanfLlu ("-csv" :: rest) o = parseArgs lib swscanfLlu rest { o with bCsv := true } := by
  rw [parseArgs.eq_def]
  simp (disch := decide) only [isSwitch_switchName hl, decide_eq_true_eq, if_pos, if_neg]

theorem parseArgs_threads :
    parseArgs lib swscanfLlu ("-threads" :: rest) o = parseArgs lib swscanfLlu rest { o with bThreadsReport := true } := by
  rw [parseArgs.eq_def]
  simp (disch := decide) only [isSwitch_switchName hl, decide_eq_true_eq, if_pos, if_neg]

theorem parseArgs_secs {v : String} {n : UInt64} (hv : swscanfLlu v = some n) :
    parseArgs lib swscanfLlu ("-secs" :: v :: rest) o = parseArgs lib swscanfLlu rest { o with nExitAgeInSecs := n } := by
  rw [parseArgs.eq_def]
  simp (disch := decide) only [isSwitch_switchName hl, decide_eq_true_eq, if_pos, if_neg, hv]

theorem parseArgs_out (v : String) :
    parseArgs lib swscanfLlu ("-out" :: v :: rest) o =
      parseArgs lib swscanfLlu rest { o with bOutToFile := true, sOutFile := v } := by
  rw [parseArgs.eq_def]
  simp (disch := decide) only [isSwitch_switchName hl, decide_eq_true_eq, if_pos, if_neg]

theorem parseArgs_diag (v : String) :
    parseArgs lib swscanfLlu ("-diag" :: v :: rest) o = parseArgs lib swscanfLlu rest { o with sDiagDirectory := v } := by
  rw [parseArgs.eq_def]
  simp (disch := decide) only [isSwitch_switchName hl, decide_eq_true_eq, if_pos, if_neg]

omit rest in
/-- The parser reads back every setting from the command line that spells it out, with any
    `-secs` argument `swscanf_s` reads as the age, provided the output file name is empty unless
    `-out` is set (as every accepted command line leaves it, `parseArgs_sOutFile`): each switch is
    recognised as itself and as no other, and values are taken verbatim, even one that is a
    switch's name. -/
theorem parseArgs_commandLine (hw : o.bOutToFile = false → o.sOutFile = "")
    {v : String} (hv : swscanfLlu v = some o.nExitAgeInSecs) :
    parseArgs lib swscanfLlu (commandLine v o) .default = .ok o := by
  obtain ⟨d, c, t, n, b, f, g⟩ := o
  simp only [commandLine, List.append_assoc, List.cons_append, List.nil_append]
  rw [parseArgs_opt _ (parseArgs_details hl), parseArgs_opt _ (parseArgs_csv hl), parseArgs_opt _ (parseArgs_threads hl),
    parseArgs_secs hl _ _ hv, parseArgs_opt _ fun rest o => parseArgs_out hl rest o f, parseArgs_diag hl]
  cases b
  · obtain rfl := hw rfl
    cases d <;> cases c <;> cases t <;> rfl
  · cases d <;> cases c <;> cases t <;> rfl

end Parse

/-! ## What wmain runs -/

/-- A `-diag` argument made only of path separators (`\`, `/`: the root of the current drive)
    is stripped to the empty path, which `GetFileAttributesW` does not find: `wmain` rejects it as
    not a directory whatever else the command line says, unless it rejected the switches first. -/
theorem wmain_rejects_separator_diag (lib : Lib) (env : WmainEnv) (fuel : Nat) {args : List String} {o : Options}
    (hw : env.bWow64Process = false) (hp : parseArgs lib env.swscanfLlu args .default = .ok o)
    (hc : invalidCombination o = false) (hne : 0 < o.sDiagDirectory.length)
    (hsep : ∀ c ∈ o.sDiagDirectory.toList, isPathSeparator c = true) (hd : env.isDirectory "" = false) :
    wmain lib env fuel args = some (.usage (some "-diag argument is not a directory")) := by
  have hs : stripTrailingSeparators o.sDiagDirectory = "" :=
    congrArg String.mk (List.rdropWhile_eq_nil_iff.mpr hsep)
  simp only [wmain, hw, hp, hc, hs, hd, hne, Bool.false_eq_true, if_false, Bool.not_false, and_self, if_true]

section Run

variable {lib : Lib} {env : WmainEnv} {fuel : Nat} {o : Options} {code : Int} {report : WmainReport}

/-- A return after a report: the switches passed every check, and the report is the one they
    select. -/
theorem wmain_returned {args : List String} {out : Option String}
    (hp : parseArgs lib env.swscanfLlu args .default = .ok o) (h : wmain lib env fuel args = some (.returned code out report)) :
    invalidCombination o = false ∧ out = (if o.bOutToFile then some o.sOutFile else none) ∧
      runReport lib env fuel o = some (code, report) := by
  simp only [wmain, hp] at h
  split at h
  · cases h
  split at h
  · cases h
  rename_i hc
  split at h
  · cases h
  split at h
  · cases h
  obtain ⟨⟨c, r⟩, hr, he⟩ := Option.map_eq_some'.mp h
  cases he
  exact ⟨Bool.eq_false_iff.mpr hc, rfl, hr⟩

theorem runReport_threads (h : runReport lib env fuel o = some (code, report)) (ht : o.bThreadsReport = true) :
    report = .threads (fullThreadReport env.threads) ∧ (code = 0 ↔ (fullThreadReport env.threads).1 = .ok ()) := by
  simp only [runReport, ht, if_true, Option.some.injEq, Prod.mk.injEq] at h
  obtain ⟨rfl, rfl⟩ := h
  refine ⟨rfl, ?_⟩
  split <;> simp_all

/-- Without `-threads`: one `Update` with the `-secs` age, then the output `-details` and `-csv`
    select, or its error. -/
theorem runReport_update (h : runReport lib env fuel o = some (code, report)) (ht : o.bThreadsReport = false) :
    ∃ u, ZombieOwners.update lib env.update o.nExitAgeInSecs fuel ZombieOwners.empty = some u ∧
      ((u.ret = .ok () ∧ code = 0 ∧ report = if !o.bDetails then
          .summary (if !o.bCsv then outputSummary u.obj else outputSummaryCsv u.obj)
        else .details (if !o.bCsv then outputDetails u.obj env.ulNow else outputDetailsCsv u.obj env.ulNow)) ∨
       (∃ e, u.ret = .error e ∧ code = -1 ∧ report = .updateFailed e)) := by
  simp only [runReport, ht, Bool.false_eq_true, if_false] at h
  obtain ⟨u, hu, he⟩ := Option.map_eq_some'.mp h
  refine ⟨u, hu, ?_⟩
  revert he
  cases u.ret with
  | ok _ => intro he; cases he; exact .inl ⟨rfl, rfl, rfl⟩
  | error e => intro he; cases he; exact .inr ⟨e, rfl, rfl, rfl⟩

end Run

/-- For an accepted command line: when `wmain` returns after a report, the switches passed the
    combination check, the report went to the `-out` file exactly when one was given, and it is
    the report the switches select: with `-threads`, `FullThreadReport`'s, returning 0 exactly
    when it succeeded; otherwise the details or the summary (`-details`, as a table or
    tab-separated by `-csv`) of one `Update` with the `-secs` age, as `wmainDetails` and
    `wmainSummary` give them, returning 0, or `Update`'s error, returning -1. -/
theorem wmain_reports (lib : Lib) (env : WmainEnv) (fuel : Nat) {args : List String} {o : Options}
    (hp : parseArgs lib env.swscanfLlu args .default = .ok o) {code : Int} {out : Option String} {report : WmainReport}
    (h : wmain lib env fuel args = some (.returned code out report)) :
    invalidCombination o = false ∧ out = (if o.bOutToFile then some o.sOutFile else none) ∧
      (o.bThreadsReport = true → report = .threads (fullThreadReport env.threads) ∧
        (code = 0 ↔ (fullThreadReport env.threads).1 = .ok ())) ∧
      (∀ ls, report = .details ls → o.bDetails = true ∧ code = 0 ∧
        wmainDetails lib env.update o.nExitAgeInSecs fuel env.ulNow o.bCsv = some ls) ∧
      (∀ r, report = .summary r → o.bDetails = false ∧ code = 0 ∧
        wmainSummary lib env.update o.nExitAgeInSecs fuel o.bCsv = some r) ∧
      (∀ e, report = .updateFailed e → code = -1) := by
  obtain ⟨hc, hout, hr⟩ := wmain_returned hp h
  refine ⟨hc, hout, runReport_threads hr, ?_⟩
  cases ht : o.bThreadsReport
  · obtain ⟨u, hu, ⟨hok, rfl, rfl⟩ | ⟨e, herr, rfl, rfl⟩⟩ := runReport_update hr ht
    · have hD : wmainDetails lib env.update o.nExitAgeInSecs fuel env.ulNow o.bCsv =
          some (if !o.bCsv then outputDetails u.obj env.ulNow else outputDetailsCsv u.obj env.ulNow) := by
        simp only [wmainDetails, hu, Option.map_some', hok]
        cases o.bCsv <;> rfl
      have hS : wmainSummary lib env.update o.nExitAgeInSecs fuel o.bCsv =
          some (if !o.bCsv then outputSummary u.obj else outputSummaryCsv u.obj) := by
        simp only [wmainSummary, hu, Option.some_bind, hok]
        cases o.bCsv <;> rfl
      cases o.bDetails
      · exact ⟨nofun, fun r hr => ⟨rfl, rfl, WmainReport.summary.inj hr ▸ hS⟩, nofun⟩
      · exact ⟨fun ls hl => ⟨rfl, rfl, WmainReport.details.inj hl ▸ hD⟩, nofun, nofun⟩
    · exact ⟨nofun, nofun, fun _ _ => rfl⟩
  · obtain ⟨rfl, -⟩ := runReport_threads hr ht
    exact ⟨nofun, nofun, nofun⟩

/-! ## Runs -/

/-- The CRT of the samples: `towlower` folds ASCII capitals, `%llu` reads unsigned decimal digits. -/
def sampleCrt : Lib := ⟨id, ZombieOwners.asciiTowlower⟩

def sampleSwscanfLlu (s : String) : Option UInt64 :=
  if s.toList ≠ [] ∧ s.toList.all Char.isDigit then
    some (s.toList.foldl (fun n c => n * 10 + UInt64.ofNat (c.toNat - 48)) 0)
  else none

theorem sampleCrt_towlower (u : WChar) (h : isSwitchChar u = true) : sampleCrt.towlower u = u := by
  simp only [isSwitchChar, Bool.or_eq_true, beq_iff_eq, Bool.and_eq_true, decide_eq_true_eq] at h
  refine if_neg fun ⟨h0, h2⟩ => ?_
  rcases h with rfl | ⟨h1, -⟩
  exacts [absurd h0 (by decide), absurd (UInt16.le_trans h1 h2) (by decide)]

/-- Two settings records whose file names are switch names, one with `-out` and one without. -/
theorem parseArgs_commandLine_sample :
    (∀ u, isSwitchChar u = true → sampleCrt.towlower u = u) ∧ sampleSwscanfLlu "10" = some 10 ∧
    parseArgs sampleCrt sampleSwscanfLlu (commandLine "10" ⟨true, false, true, 10, true, "-CSV", "-details"⟩) .default =
      .ok ⟨true, false, true, 10, true, "-CSV", "-details"⟩ ∧
    parseArgs sampleCrt sampleSwscanfLlu (commandLine "10" ⟨false, true, false, 10, false, "", "-Out"⟩) .default =
      .ok ⟨false, true, false, 10, false, "", "-Out"⟩ :=
  ⟨sampleCrt_towlower, rfl, parseArgs_commandLine sampleCrt_towlower ⟨true, false, true, 10, true, "-CSV", "-details"⟩ nofun rfl,
    parseArgs_commandLine sampleCrt_towlower _ (fun _ => rfl) rfl⟩

end ZombieFinder
