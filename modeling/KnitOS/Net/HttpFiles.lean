import KnitOS.Fs.PathResolution
import KnitOS.Net.HttpProtocol
import Mathlib.Data.List.Infix

/-!
# The files of the HTTP server

`http_path_safe` refuses every component `..`, so that the path built from a
request stays below the document root.  The access log is another file.
-/

namespace KnitOS.Net

open Lib Fs

abbrev httpDocRoot : List UInt8 := ascii "/www"

def httpPathSafe (path : List UInt8) : Bool :=
  path.head? == some slash &&
    path.tails.all fun rest => !([dot, dot, slash].isPrefixOf rest || rest == [dot, dot])

/-- The loops of `http_build_fs_path`. -/
def putText (cap : Nat) (out text : List UInt8) : List UInt8 :=
  text.foldl (fun out byte => if out.length + 1 < cap then out ++ [byte] else out) out

def httpBuildFsPath (cap : Nat) (path : List UInt8) : List UInt8 :=
  let req := if path = [] then [slash] else path
  let root := putText cap [] httpDocRoot
  if req = [slash] then
    putText cap root (ascii "/index.html")
  else
    let out := putText cap root req
    if out.getLast? = some slash then putText cap out (ascii "index.html") else out

/-- The file that a request with a body reads or writes, apart from the log of
the answers. -/
def httpRequestFile (info : HttpRequestInfo) : Option (List UInt8) :=
  let path := cString info.path
  if info.method = .options ∨ httpPathSafe path = false ∨ info.method = .post then
    none
  else if path = ascii "/api/access-log" ∧ info.method = .get then
    some (ascii "/var/log/http-access.log")
  else if path = ascii "/api/ports" ∧ info.method = .get then
    none
  else
    some (httpBuildFsPath 208 path)

/-- Resolving the path, or the start of it, stays below the document root, when
there are no links below it. -/
def Confined (path : List UInt8) : Prop :=
  ∃ steps, pathSteps path = some (.down (ascii "www") :: steps) ∧
    ∀ view top, (namingOf view).find rootIno (ascii "www") = some top →
      (∀ node, (namingOf view).Below top node → (view node).isSymlink = false) →
      ∀ budget isFollowing count last,
        (namingOf view).resolve budget isFollowing
            (.down (ascii "www") :: steps.take count) = some last →
          (namingOf view).Below top last

theorem putText_eq {cap : Nat} (text : List UInt8) {out : List UInt8}
    (fits : (out ++ text).length < cap) : putText cap out text = out ++ text := by
  induction text generalizing out with
  | nil => exact (List.append_nil out).symm
  | cons byte text ih =>
    have room : out.length + 1 < cap := by
      simp at fits
      omega
    unfold putText at ih ⊢
    rw [List.foldl_cons, if_pos room, ih (by simpa using fits), List.append_assoc]
    rfl

variable {path : List UInt8}

/-- Nothing is cut off. -/
theorem httpBuildFsPath_eq (absolute : path.head? = some slash) (short : path.length ≤ 191) :
    httpBuildFsPath 208 path = httpDocRoot ++ path ++
      if path.getLast? = some slash then ascii "index.html" else [] := by
  have nonempty : path ≠ [] := by
    rintro rfl
    cases absolute
  have root : putText 208 [] httpDocRoot = httpDocRoot := by decide
  unfold httpBuildFsPath
  dsimp only
  rw [if_neg nonempty, root]
  by_cases isRoot : path = [slash]
  · rw [isRoot]
    decide
  · have rootLength : httpDocRoot.length = 4 := by decide
    have indexLength : (ascii "index.html").length = 10 := by decide
    have last : (httpDocRoot ++ path).getLast? = path.getLast? := by
      rw [List.getLast?_append, List.getLast?_eq_some_getLast nonempty]
      rfl
    rw [if_neg isRoot, putText_eq path (by rw [List.length_append]; omega), last]
    split
    · exact putText_eq _ (by rw [List.length_append, List.length_append]; omega)
    · rw [List.append_nil]

/-- A component ends at a slash or at the end. -/
theorem mem_splitSlash {name : List UInt8} : ∀ {text : List UInt8}, name ∈ splitSlash text →
    ∃ after, name ++ after <:+ text ∧ after.head?.all (· == slash) = true
  | [], member => absurd member List.not_mem_nil
  | byte :: rest, member => by
    rw [splitSlash_eq (List.cons_ne_nil byte rest)] at member
    rcases List.mem_cons.mp member with rfl | later
    · refine ⟨(byte :: rest).dropWhile fun byte => byte != slash, ?_, ?_⟩
      · rw [List.takeWhile_append_dropWhile]
      · have stops := List.head?_dropWhile_not (fun byte => byte != slash) (byte :: rest)
        cases after : ((byte :: rest).dropWhile fun byte => byte != slash).head? with
        | none => rfl
        | some first =>
          rw [after] at stops
          simpa using stops
    · have dropped := List.dropWhile_suffix (l := byte :: rest) fun byte => byte != slash
      obtain ⟨after, isSuffix, ends⟩ := mem_splitSlash later
      exact ⟨after, isSuffix.trans ((List.tail_suffix _).trans dropped), ends⟩
termination_by text => text.length
decreasing_by
  have shorter := (List.dropWhile_suffix (l := byte :: rest) fun byte => byte != slash).length_le
  rw [List.length_cons] at shorter
  rw [List.length_tail, List.length_cons]
  omega

/-- A text that ends with a slash has its own components. -/
theorem splitSlash_append {text : List UInt8} (more : List UInt8)
    (ends : text.getLast?.all (· == slash) = true) :
    splitSlash (text ++ more) = splitSlash text ++ splitSlash more := by
  induction text with
  | nil => rfl
  | cons byte rest ih =>
    cases rest with
    | nil =>
      have isSlash : byte = slash := by simpa using ends
      rw [isSlash]
      rfl
    | cons next others =>
      rw [List.getLast?_cons_cons] at ends
      rw [List.cons_append, splitSlash, ih ends, splitSlash.eq_2 byte,
        splitSlash_eq (List.cons_ne_nil next others)]
      split <;> rfl

theorem no_parent_of_safe (safe : httpPathSafe path = true) :
    [dot, dot] ∉ splitSlash path := by
  intro member
  obtain ⟨after, isSuffix, ends⟩ := mem_splitSlash member
  have refused := List.all_eq_true.mp (Bool.and_eq_true_iff.mp safe).2 _
    ((List.mem_tails _ _).mpr isSuffix)
  cases after with
  | nil => simp at refused
  | cons byte after =>
    have isSlash : byte = slash := by simpa using ends
    simp [isSlash] at refused

theorem httpPath_absolute (safe : httpPathSafe path = true) : ∃ rest, path = slash :: rest := by
  have absolute := (Bool.and_eq_true_iff.mp safe).1
  cases path with
  | nil => cases absolute
  | cons byte rest => exact ⟨rest, by simpa using absolute⟩

/-- The components behind the document root. -/
theorem pathSteps_httpBuildFsPath (safe : httpPathSafe path = true) (short : path.length ≤ 191) :
    ∃ names : List (List UInt8), pathSteps (httpBuildFsPath 208 path) =
      some (.down (ascii "www") :: names.map stepOf) ∧ [dot, dot] ∉ names := by
  obtain ⟨rest, rfl⟩ := httpPath_absolute safe
  have clean : [dot, dot] ∉ splitSlash rest :=
    fun member => no_parent_of_safe safe (List.mem_cons_of_mem _ member)
  refine ⟨splitSlash rest ++
    if (slash :: rest).getLast? = some slash then [ascii "index.html"] else [], ?_, ?_⟩
  · have built := httpBuildFsPath_eq rfl short
    rw [List.length_cons] at short
    rw [built, pathSteps_eq_referenceSteps]
    · have behind : splitSlash (rest ++
          if (slash :: rest).getLast? = some slash then ascii "index.html" else []) =
          splitSlash rest ++
            if (slash :: rest).getLast? = some slash then [ascii "index.html"] else [] := by
        split
        · rename_i ends
          refine splitSlash_append _ ?_
          cases rest with
          | nil => rfl
          | cons byte rest =>
            rw [List.getLast?_cons_cons] at ends
            rw [ends]
            rfl
        · rw [List.append_nil, List.append_nil]
      change some ((splitSlash (ascii "www/" ++ (rest ++ _))).map stepOf) = _
      rw [splitSlash_append _ (by decide), behind]
      rfl
    · split
      all_goals simp [ascii]
      all_goals omega
  · rw [List.mem_append, not_or]
    refine ⟨clean, ?_⟩
    split <;> decide

theorem confined_httpBuildFsPath (safe : httpPathSafe path = true) (short : path.length ≤ 191) :
    Confined (httpBuildFsPath 208 path) := by
  obtain ⟨names, isSteps, clean⟩ := pathSteps_httpBuildFsPath safe short
  refine ⟨_, isSteps, ?_⟩
  intro view top isTop plain budget isFollowing count last resolved
  have stays : ∀ node, (namingOf view).Below top node →
      (if isFollowing then (namingOf view).follow budget else some) node = some node := by
    intro node below
    split
    · exact Naming.follow_of_link_none (namingOf_link_none (plain node below)) budget
    · rfl
  have descends : PathStep.up ∉ (names.map stepOf).take count := by
    intro member
    obtain ⟨name, isName, isUp⟩ := List.mem_map.mp (List.mem_of_mem_take member)
    unfold stepOf at isUp
    split at isUp
    · cases isUp
    · split at isUp
      · rename_i isParent
        exact clean (isParent ▸ isName)
      · cases isUp
  obtain ⟨entered, enters, goesOn⟩ :=
    Option.bind_eq_some_iff.mp (Option.filter_eq_some_iff.mp resolved).1
  have reached := (Naming.enter_eq_some_iff.mp enters).1
  rw [show (namingOf view).root = rootIno from rfl, isTop, Option.bind_some,
    stays top .top] at reached
  cases reached
  exact Naming.walk_below stays descends .top goesOn

theorem length_path_le {buffer : List UInt8} {reqLen : Nat} {info : HttpRequestInfo}
    (parsed : httpParseRequest buffer reqLen = .ok info) : info.path.length ≤ 191 := by
  unfold httpParseRequest at parsed
  dsimp only at parsed
  repeat' split at parsed
  all_goals cases parsed
  exact List.length_take_le _ _

/-- A request reads or writes the file below the document root that its path
names, or reads the access log. -/
theorem http_files_confined {buffer : List UInt8} {reqLen : Nat} {info : HttpRequestInfo}
    (parsed : httpParseRequest buffer reqLen = .ok info)
    (safe : httpPathSafe (cString info.path) = true) :
    let path := cString info.path
    let built := httpBuildFsPath 208 path
    (built = httpDocRoot ++ path ++
      if path.getLast? = some slash then ascii "index.html" else []) ∧ Confined built ∧
    ∀ file, httpRequestFile info = some file → file = built ∨
      info.method = .get ∧ path = ascii "/api/access-log" ∧
        file = ascii "/var/log/http-access.log" := by
  have short : (cString info.path).length ≤ 191 :=
    (cString_initial _).length_le.trans (length_path_le parsed)
  obtain ⟨rest, absolute⟩ := httpPath_absolute safe
  refine ⟨httpBuildFsPath_eq (by rw [absolute]; rfl) short, confined_httpBuildFsPath safe short, ?_⟩
  intro file isFile
  unfold httpRequestFile at isFile
  dsimp only at isFile
  repeat' split at isFile
  all_goals cases isFile
  · rename_i isLog
    exact Or.inr ⟨isLog.2, isLog.1, rfl⟩
  · exact Or.inl rfl

/-- The path `/` names `/www/index.html`. -/
theorem http_files_confined_index :
    httpBuildFsPath 208 (ascii "/") = ascii "/www/index.html" ∧
      Confined (httpBuildFsPath 208 (ascii "/")) := by
  have parsed : httpParseRequest (ascii "GET / HTTP/1.1\r\n\r\n") 18 =
      .ok ⟨.get, ascii "/", true, true, false, false, false, 0⟩ := by decide +kernel
  obtain ⟨built, confined, _⟩ := http_files_confined parsed (by decide)
  exact ⟨built.trans (by decide), confined⟩

/-- `/api/access-log` passes `http_path_safe`, and the file is outside. -/
theorem http_access_log_outside : ∃ info file,
    httpParseRequest (ascii "GET /api/access-log HTTP/1.1\r\n\r\n") 32 = .ok info ∧
      httpPathSafe (cString info.path) = true ∧
      httpRequestFile info = some file ∧ ¬ Confined file := by
  refine ⟨⟨.get, ascii "/api/access-log", true, true, false, false, false, 0⟩,
    ascii "/var/log/http-access.log", by decide +kernel, by decide +kernel, by decide +kernel, ?_⟩
  rintro ⟨steps, isSteps, _⟩
  have first : (pathSteps (ascii "/var/log/http-access.log")).bind List.head? =
      some (.down (ascii "www")) := by
    rw [isSteps]
    rfl
  exact absurd first (by decide +kernel)

end KnitOS.Net
