import ExPTY.NifTerms

/-! Which terms the native spawn takes, and what it takes them for. A text may be a binary
or a list of Latin-1 characters, an argument list holds binaries only, and every atom is a
truth value. On the terms that the server sends for a request this is the request itself. -/

namespace ExPTY.Proofs.TermDecoding
open NifTerms
open Elixir (Value)
open Handover (Platform accepts)
open NativeCalls (is_int)
open Server (Binary SpawnUnix)

inductive Characters : Value → Binary → Prop where
  | empty : Characters .empty []
  | cons {tail : Value} {rest : Binary} (byte : UInt8) (more : Characters tail rest) :
      Characters (.cons (.integer byte.toNat) tail) (byte :: rest)

inductive Text : Value → Binary → Prop where
  | binary (bytes : Binary) : Text (.binary bytes) bytes
  | characters {term : Value} {bytes : Binary} (latin1 : Characters term bytes) : Text term bytes

inductive Texts : Value → List Binary → Prop where
  | empty : Texts .empty []
  | cons {tail : Value} {rest : List Binary} (bytes : Binary) (more : Texts tail rest) :
      Texts (.cons (.binary bytes) tail) (bytes :: rest)

inductive Entries : List (Value × Value) → List Binary → Prop where
  | nil : Entries [] []
  | cons {key value : Value} {name text : Binary} {rest : List (Value × Value)} {envs : List Binary} (named : Text key name)
      (valued : Text value text) (more : Entries rest envs) :
      Entries ((key, value) :: rest) ((name ++ 0x3D :: text) :: envs)

def Number (term : Value) (value : Int) : Prop := term = .integer value ∧ is_int value

def Truth (term : Value) (truth : Bool) : Prop :=
  ∃ name, term = .atom name ∧ (∀ c ∈ name.toList, c.toNat < 256) ∧ truth = decide (name = "true")

/-- What `expty_spawn` takes a call for. -/
structure Means (maps : Nat → Option (List (Value × Value))) (terms : Terms) (locals : Locals) : Prop where
  file : Text terms.file locals.file
  args : Texts terms.args locals.args
  envs : ∃ id pairs, terms.env = .other id ∧ maps id = some pairs ∧ Entries pairs locals.envs
  cwd : Text terms.cwd locals.cwd
  cols : Number terms.cols locals.cols ∧ locals.cols > 0
  rows : Number terms.rows locals.rows ∧ locals.rows > 0
  ibaudrate : Number terms.ibaudrate locals.ibaudrate ∧ locals.ibaudrate ≥ 0
  obaudrate : Number terms.obaudrate locals.obaudrate ∧ locals.obaudrate ≥ 0
  uid : Number terms.uid locals.uid
  gid : Number terms.gid locals.gid
  is_utf8 : Truth terms.is_utf8 locals.is_utf8
  closeFDs : Truth terms.closeFDs locals.closeFDs
  echo : Truth terms.echo locals.echo
  helper_path : Text terms.helper_path locals.helper_path

section Terms

theorem latin1_iff (term : Value) (byte : UInt8) : latin1 term = some byte ↔ term = .integer byte.toNat := by
  have bound := byte.toNat_lt
  constructor
  · intro read
    cases term with
    | integer value =>
      simp only [latin1, Option.ite_none_right_eq_some, Option.some.injEq] at read
      obtain ⟨within, rfl⟩ := read
      rw [UInt8.toNat_ofNat']
      exact congrArg Value.integer (by omega)
    | atom | binary | function | empty | cons | other => cases read
  · rintro rfl
    rw [latin1, if_pos (by omega), Int.toNat_natCast, UInt8.ofNat_toNat]

theorem characters_iff (term : Value) (bytes : Binary) : characters term = some bytes ↔ Characters term bytes := by
  induction term generalizing bytes with
  | empty =>
    constructor
    · intro read
      cases read
      exact .empty
    · intro read
      cases read
      rfl
  | cons head tail _ ih =>
    simp only [characters, Option.bind_eq_bind, Option.bind_eq_some_iff, Option.pure_def, Option.some.injEq]
    constructor
    · rintro ⟨byte, first, rest, later, rfl⟩
      rw [(latin1_iff head byte).mp first]
      exact .cons byte ((ih rest).mp later)
    · intro read
      cases read with
      | @cons _ rest byte more => exact ⟨byte, (latin1_iff _ byte).mpr rfl, rest, (ih rest).mpr more, rfl⟩
  | atom | integer | binary | function | other =>
    constructor
    · intro read
      cases read
    · intro read
      cases read

theorem characters_length {term : Value} {bytes : Binary} (read : Characters term bytes) :
    enif_get_list_length term = some bytes.length := by
  induction read with
  | empty => rfl
  | cons byte more ih =>
    rw [enif_get_list_length, ih]
    rfl

/-- The buffer is as long as the list and the zero at the end, so that nothing is cut. -/
theorem get_string_characters {term : Value} (list : ∀ bytes, term ≠ .binary bytes) : get_string term = characters term := by
  have unfolded : get_string term = (enif_get_list_length term).bind fun len =>
      if (enif_get_string term (len + 1)).1 > 0 then
        some ((enif_get_string term (len + 1)).2.take ((enif_get_string term (len + 1)).1 - 1).toNat)
      else if (enif_get_string term (len + 1)).1 = 0 then none
      else some ((enif_get_string term (len + 1)).2 ++ List.replicate (len + 1 - (enif_get_string term (len + 1)).2.length) 0) := by
    cases term with
    | binary bytes => exact absurd rfl (list bytes)
    | _ => rfl
  rw [unfolded]
  cases read : characters term with
  | none =>
    simp only [enif_get_string, read]
    cases enif_get_list_length term <;> rfl
  | some text =>
    rw [characters_length ((characters_iff term text).mp read)]
    have fits : ¬ text.length + 1 < 1 := by omega
    simp only [enif_get_string, read, Option.bind_some, if_neg fits, if_pos (Nat.lt_succ_self text.length)]
    rw [if_pos (by omega), Int.add_sub_cancel, Int.toNat_natCast, List.take_length]

theorem get_string_iff (term : Value) (bytes : Binary) : get_string term = some bytes ↔ Text term bytes := by
  by_cases binary : ∃ held, term = .binary held
  · obtain ⟨held, rfl⟩ := binary
    constructor
    · intro read
      cases read
      apply Text.binary
    · intro text
      cases text with
      | binary => rfl
      | characters latin1 => cases latin1
  · rw [get_string_characters fun held same => binary ⟨held, same⟩, characters_iff]
    constructor
    · exact .characters
    · intro text
      cases text with
      | binary => exact absurd ⟨bytes, rfl⟩ binary
      | characters latin1 => exact latin1

private theorem texts_length {term : Value} {texts : List Binary} (read : Texts term texts) :
    enif_get_list_length term = some texts.length := by
  induction read with
  | empty => rfl
  | cons bytes more ih =>
    rw [enif_get_list_length, ih]
    rfl

private theorem get_cells_texts {term : Value} {len : Nat} (proper : enif_get_list_length term = some len)
    {texts : List Binary} (read : get_cells term = some texts) : Texts term texts := by
  induction term generalizing texts len with
  | empty =>
    cases read
    exact .empty
  | cons head tail _ ih =>
    obtain ⟨rest, shorter, _⟩ := Option.map_eq_some_iff.mp proper
    cases head with
    | binary bytes =>
      obtain ⟨later, below, rfl⟩ := Option.map_eq_some_iff.mp read
      exact .cons bytes (ih shorter below)
    | atom | integer | function | empty | cons | other => cases read
  | atom | integer | binary | function | other => cases proper

theorem get_list_iff (term : Value) (texts : List Binary) : get_list term = some texts ↔ Texts term texts := by
  constructor
  · intro read
    obtain ⟨len, proper, read⟩ := Option.bind_eq_some_iff.mp read
    exact get_cells_texts proper read
  · intro read
    rw [get_list, texts_length read, Option.bind_some]
    induction read with
    | empty => rfl
    | cons bytes more ih =>
      rw [get_cells, ih]
      rfl

theorem get_pairs_iff (pairs : List (Value × Value)) (envs : List Binary) :
    get_pairs pairs = some envs ↔ Entries pairs envs := by
  induction pairs generalizing envs with
  | nil =>
    constructor
    · intro read
      cases read
      exact .nil
    · intro read
      cases read
      rfl
  | cons pair rest ih =>
    obtain ⟨key, value⟩ := pair
    simp only [get_pairs, Option.bind_eq_bind, Option.bind_eq_some_iff, Option.pure_def, Option.some.injEq]
    constructor
    · rintro ⟨name, named, text, valued, later, read, rfl⟩
      exact .cons ((get_string_iff key name).mp named) ((get_string_iff value text).mp valued) ((ih later).mp read)
    · intro read
      cases read with
      | @cons _ _ name text _ later named valued more =>
        exact ⟨name, (get_string_iff key name).mpr named, text, (get_string_iff value text).mpr valued, later,
          (ih later).mpr more, rfl⟩

theorem get_env_iff {maps : Nat → Option (List (Value × Value))} (term : Value) (envs : List Binary) :
    get_env maps term = some envs ↔ ∃ id pairs, term = .other id ∧ maps id = some pairs ∧ Entries pairs envs := by
  constructor
  · intro read
    cases term with
    | other id =>
      obtain ⟨pairs, found, read⟩ := Option.bind_eq_some_iff.mp read
      exact ⟨id, pairs, rfl, found, (get_pairs_iff pairs envs).mp read⟩
    | atom | integer | binary | function | empty | cons => cases read
  · rintro ⟨id, pairs, rfl, found, entries⟩
    rw [get_env, found, Option.bind_some]
    exact (get_pairs_iff pairs envs).mpr entries

theorem get_int_iff (term : Value) (value : Int) : get_int term = some value ↔ Number term value := by
  constructor
  · intro read
    cases term with
    | integer held =>
      simp only [get_int, Option.ite_none_right_eq_some, Option.some.injEq] at read
      obtain ⟨int, rfl⟩ := read
      exact ⟨rfl, int⟩
    | atom | binary | function | empty | cons | other => cases read
  · rintro ⟨rfl, int⟩
    exact if_pos int

private theorem bytes_inj {first second : List Char} (small : ∀ c ∈ first, c.toNat < 256)
    (small' : ∀ c ∈ second, c.toNat < 256)
    (same : first.map (fun c => UInt8.ofNat c.toNat) = second.map fun c => UInt8.ofNat c.toNat) : first = second := by
  induction first generalizing second with
  | nil => exact (List.map_eq_nil_iff.mp same.symm).symm
  | cons c rest ih =>
    cases second with
    | nil => cases same
    | cons d later =>
      obtain ⟨head, tail⟩ := List.cons.inj same
      have first := small c (.head _)
      have second := small' d (.head _)
      have numbers := congrArg UInt8.toNat head
      rw [UInt8.toNat_ofNat', UInt8.toNat_ofNat', Nat.mod_eq_of_lt first, Nat.mod_eq_of_lt second] at numbers
      rw [Char.toNat_inj.mp numbers, ih (fun c member => small c (.tail _ member)) (fun c member => small' c (.tail _ member)) tail]

private theorem small_of_all {name : String} (all : name.toList.all (·.toNat < 256) = true) :
    ∀ c ∈ name.toList, c.toNat < 256 :=
  fun c member => of_decide_eq_true (List.all_eq_true.mp all c member)

theorem get_bool_iff (term : Value) (truth : Bool) : get_bool term = some truth ↔ Truth term truth := by
  have atom (name : String) (small : ∀ c ∈ name.toList, c.toNat < 256) :
      get_bool (.atom name) = some (decide (name = "true")) := by
    have all : name.toList.all (·.toNat < 256) = true := List.all_eq_true.mpr fun c member => decide_eq_true (small c member)
    rw [get_bool, get_atom, if_pos all, Option.map_some, Option.some.injEq, decide_eq_decide]
    constructor
    · intro same
      apply String.toList_inj.mp
      exact bytes_inj small (small_of_all rfl) (same.trans (by decide))
    · rintro rfl
      decide
  constructor
  · intro read
    cases term with
    | atom name =>
      obtain ⟨bytes, found, _⟩ := Option.map_eq_some_iff.mp read
      have small : ∀ c ∈ name.toList, c.toNat < 256 := by
        simp only [get_atom, Option.ite_none_right_eq_some] at found
        exact small_of_all found.1
      exact ⟨name, rfl, small, Option.some.inj (read.symm.trans (atom name small))⟩
    | integer | binary | function | empty | cons | other => cases read
  · rintro ⟨name, rfl, small, rfl⟩
    exact atom name small

theorem at_least_iff (bound value : Int) (enough : Unit) : at_least bound value = some enough ↔ value ≥ bound := by
  simp [at_least]

end Terms

variable {maps : Nat → Option (List (Value × Value))}

/-- The native spawn reads a call exactly as what its terms stand for, and answers an error
for all others. -/
theorem read_iff (terms : Terms) (locals : Locals) : terms.read maps = some locals ↔ Means maps terms locals := by
  constructor
  · intro read
    obtain ⟨file, text, read⟩ := Option.bind_eq_some_iff.mp read
    obtain ⟨args, texts, read⟩ := Option.bind_eq_some_iff.mp read
    obtain ⟨envs, entries, read⟩ := Option.bind_eq_some_iff.mp read
    obtain ⟨cwd, folder, read⟩ := Option.bind_eq_some_iff.mp read
    obtain ⟨cols, wide, read⟩ := Option.bind_eq_some_iff.mp read
    obtain ⟨_, some_cols, read⟩ := Option.bind_eq_some_iff.mp read
    obtain ⟨rows, high, read⟩ := Option.bind_eq_some_iff.mp read
    obtain ⟨_, some_rows, read⟩ := Option.bind_eq_some_iff.mp read
    obtain ⟨ibaudrate, input, read⟩ := Option.bind_eq_some_iff.mp read
    obtain ⟨_, input_rate, read⟩ := Option.bind_eq_some_iff.mp read
    obtain ⟨obaudrate, output, read⟩ := Option.bind_eq_some_iff.mp read
    obtain ⟨_, output_rate, read⟩ := Option.bind_eq_some_iff.mp read
    obtain ⟨uid, user, read⟩ := Option.bind_eq_some_iff.mp read
    obtain ⟨gid, group, read⟩ := Option.bind_eq_some_iff.mp read
    obtain ⟨is_utf8, utf8, read⟩ := Option.bind_eq_some_iff.mp read
    obtain ⟨closeFDs, closes, read⟩ := Option.bind_eq_some_iff.mp read
    obtain ⟨echo, echoes, read⟩ := Option.bind_eq_some_iff.mp read
    obtain ⟨helper_path, helper, read⟩ := Option.bind_eq_some_iff.mp read
    cases read
    exact
      { file := (get_string_iff _ _).mp text, args := (get_list_iff _ _).mp texts, envs := (get_env_iff _ _).mp entries
        cwd := (get_string_iff _ _).mp folder
        cols := ⟨(get_int_iff _ _).mp wide, (at_least_iff _ _ _).mp some_cols⟩
        rows := ⟨(get_int_iff _ _).mp high, (at_least_iff _ _ _).mp some_rows⟩
        ibaudrate := ⟨(get_int_iff _ _).mp input, (at_least_iff _ _ _).mp input_rate⟩
        obaudrate := ⟨(get_int_iff _ _).mp output, (at_least_iff _ _ _).mp output_rate⟩
        uid := (get_int_iff _ _).mp user, gid := (get_int_iff _ _).mp group, is_utf8 := (get_bool_iff _ _).mp utf8
        closeFDs := (get_bool_iff _ _).mp closes, echo := (get_bool_iff _ _).mp echoes
        helper_path := (get_string_iff _ _).mp helper }
  · intro means
    simp only [Terms.read, (get_string_iff _ _).mpr means.file, (get_list_iff _ _).mpr means.args, (get_env_iff _ _).mpr means.envs,
      (get_string_iff _ _).mpr means.cwd, (get_int_iff _ _).mpr means.cols.1, (at_least_iff 1 _ ()).mpr means.cols.2,
      (get_int_iff _ _).mpr means.rows.1, (at_least_iff 1 _ ()).mpr means.rows.2, (get_int_iff _ _).mpr means.ibaudrate.1,
      (at_least_iff 0 _ ()).mpr means.ibaudrate.2, (get_int_iff _ _).mpr means.obaudrate.1,
      (at_least_iff 0 _ ()).mpr means.obaudrate.2, (get_int_iff _ _).mpr means.uid, (get_int_iff _ _).mpr means.gid,
      (get_bool_iff _ _).mpr means.is_utf8, (get_bool_iff _ _).mpr means.closeFDs, (get_bool_iff _ _).mpr means.echo,
      (get_string_iff _ _).mpr means.helper_path, Option.bind_eq_bind, Option.bind_some, Option.pure_def]

def list (texts : List Binary) : Value := texts.foldr (fun bytes tail => .cons (.binary bytes) tail) .empty

/-- The terms that the server sends for a request whose environment is the map `id`. -/
def sent (id : Nat) (request : SpawnUnix) : Terms :=
  { file := .binary request.file, args := list request.args, env := .other id, cwd := .binary request.cwd
    cols := .integer request.cols, rows := .integer request.rows, ibaudrate := .integer request.ibaudrate
    obaudrate := .integer request.obaudrate, uid := .integer request.uid, gid := .integer request.gid
    is_utf8 := truth request.is_utf8, closeFDs := truth request.closeFDs, echo := truth request.echo?
    helper_path := .binary request.helperPath }

def pairs (env : List (Binary × Binary)) : List (Value × Value) := env.map fun entry => (.binary entry.1, .binary entry.2)

def taken (request : SpawnUnix) : Locals :=
  { file := request.file, args := request.args, envs := Handover.get_env request.env, cwd := request.cwd
    cols := request.cols, rows := request.rows, ibaudrate := request.ibaudrate, obaudrate := request.obaudrate
    uid := request.uid, gid := request.gid, is_utf8 := request.is_utf8, closeFDs := request.closeFDs
    echo := request.echo?, helper_path := request.helperPath }

section Requests

theorem texts_list (texts : List Binary) : Texts (list texts) texts := by
  induction texts with
  | nil => exact .empty
  | cons bytes rest ih => exact .cons bytes ih

theorem entries_pairs (env : List (Binary × Binary)) : Entries (pairs env) (Handover.get_env env) := by
  induction env with
  | nil => exact .nil
  | cons entry rest ih => exact .cons (.binary entry.1) (.binary entry.2) ih

theorem truth_means (value : Bool) : Truth (truth value) value := by
  refine ⟨_, rfl, ?_, ?_⟩
  · cases value <;> exact small_of_all rfl
  · cases value <;> decide

theorem sent_means {id : Nat} {request : SpawnUnix} (env : maps id = some (pairs request.env)) (accepted : accepts request) :
    Means maps (sent id request) (taken request) := by
  obtain ⟨cols, wide, rows, high, input, positive, output, positive', uid, gid⟩ := accepted
  exact
    { file := .binary _, args := texts_list _, envs := ⟨id, _, rfl, env, entries_pairs _⟩, cwd := .binary _
      cols := ⟨⟨rfl, cols⟩, wide⟩, rows := ⟨⟨rfl, rows⟩, high⟩, ibaudrate := ⟨⟨rfl, input⟩, positive⟩
      obaudrate := ⟨⟨rfl, output⟩, positive'⟩, uid := ⟨rfl, uid⟩, gid := ⟨rfl, gid⟩, is_utf8 := truth_means _
      closeFDs := truth_means _, echo := truth_means _, helper_path := .binary _ }

theorem accepts_of_means {id : Nat} {request : SpawnUnix} {locals : Locals} (means : Means maps (sent id request) locals) :
    accepts request := by
  have same {value held : Int} (number : Number (.integer held) value) : value = held := (Value.integer.inj number.1).symm
  obtain ⟨⟨wide, cols⟩, high, rows⟩ := And.intro means.cols means.rows
  obtain ⟨⟨input, ibaudrate⟩, output, obaudrate⟩ := And.intro means.ibaudrate means.obaudrate
  rw [same wide] at cols
  rw [same high] at rows
  rw [same input] at ibaudrate
  rw [same output] at obaudrate
  exact ⟨same wide ▸ wide.2, cols, same high ▸ high.2, rows, same input ▸ input.2, ibaudrate, same output ▸ output.2, obaudrate,
    same means.uid ▸ means.uid.2, same means.gid ▸ means.gid.2⟩

theorem expty_spawn_sent {id : Nat} {request : SpawnUnix} (env : maps id = some (pairs request.env)) (platform : Platform) :
    expty_spawn maps platform (sent id request) = Handover.expty_spawn platform request := by
  by_cases accepted : accepts request
  · rw [expty_spawn, (read_iff _ _).mpr (sent_means env accepted), Handover.expty_spawn, if_pos accepted]
    rfl
  · rw [Handover.expty_spawn, if_neg accepted, expty_spawn]
    cases read : (sent id request).read maps with
    | none => rfl
    | some locals => exact absurd (accepts_of_means ((read_iff _ _).mp read)) accepted

end Requests

/-- A call of the native spawn is read exactly as what its terms stand for, whatever terms
they are, and on the terms of a request the native spawn is the spawn of that request. -/
theorem spawn_reads_exactly :
    (∀ (maps : Nat → Option (List (Value × Value))) (terms : Terms) (locals : Locals),
      terms.read maps = some locals ↔ Means maps terms locals) ∧
      ∀ (maps : Nat → Option (List (Value × Value))) (platform : Platform) (id : Nat) (request : SpawnUnix),
        maps id = some (pairs request.env) →
          expty_spawn maps platform (sent id request) = Handover.expty_spawn platform request :=
  ⟨fun _ => read_iff, fun _ platform _ _ env => expty_spawn_sent env platform⟩

/-- The terms of a call with a list of characters for its file, and with the atom `yes`. -/
def characterCall : Terms :=
  { file := .cons (.integer 0x73) (.cons (.integer 0x68) .empty), args := .cons (.binary [0x2D]) .empty, env := .other 0
    cwd := .empty, cols := .integer 80, rows := .integer 24, ibaudrate := .integer 38400, obaudrate := .integer 38400
    uid := .integer (-2), gid := .integer (-2), is_utf8 := .atom "yes", closeFDs := .atom "false", echo := .atom "true"
    helper_path := .binary [0x68] }

def refused : SpawnUnix :=
  { file := [0x73, 0x68], args := [], env := [([0x41], [0x31])], cwd := [], cols := 80, rows := 0, ibaudrate := 38400
    obaudrate := 38400, uid := -2, gid := -2, is_utf8 := true, closeFDs := false, echo? := false, helperPath := [0x68] }

theorem characters_taken :
    Means (fun _ => some []) characterCall
        { file := [0x73, 0x68], args := [[0x2D]], envs := [], cwd := [], cols := 80, rows := 24, ibaudrate := 38400
          obaudrate := 38400, uid := -2, gid := -2, is_utf8 := false, closeFDs := false, echo := true, helper_path := [0x68] } ∧
      expty_spawn (fun _ => some [(.binary [0x41], .binary [0x31])]) ⟨0, 0, false⟩ (sent 0 refused) = none :=
  ⟨(spawn_reads_exactly.1 _ characterCall _).mp rfl, spawn_reads_exactly.2 _ _ 0 _ rfl⟩

end ExPTY.Proofs.TermDecoding
