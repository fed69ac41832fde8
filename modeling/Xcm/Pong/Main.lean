import Mathlib.Data.Nat.Digits
import Xcm.Pong.Client

/-!
# Options of `xcmpong`

`main` reads its options with `getopt(argc, argv, "cspn:m:b:i:h")`, parses the values of
`-n`, `-m` and `-b` with `parse_int` and that of `-i` with `parse_float`, checks each, and
then decides what to run: a server, a client, or both, the default. Modelled here from the
options `getopt` returns, in order: the `switch` of the loop (`Settings.opt`), the tests
after it (`launch`), and the exit status `main` computes from its children's
(`exitFailure`). `strtol` and the conversion of its `long` to `int` are modelled from the
C library's contract and gcc's; `strtof` only through what `main` tests of its result, its
sign, and how much of the string it reads, which is a parameter.

The settings carry the checks made on them, so each client is given a `ClientCfg`, the
one `Xcm.Pong.Client` and `Xcm.Pong.Latency` run with. What the options do shows in four
places: `parse_int` reduces a numeral modulo `2 ^ 32` and overflows on a multiplier
(`parseInt_toDigits`); an option `getopt` rejects is ignored (`xcmpong_other`); `-p` after
`-n 100000` sets `INT_MAX` round trips (`opts_n_p`); and, with a client or a server alone,
the exit status is read from the status of the process not run (`xcmpong_exitFailure`).

## Main results

* `parseInt_toDigits`: what `parse_int` makes of a decimal numeral, with or without a
  multiplier.
* `xcmpong_other`, `opts_n_p`: what the option loop does with `'?'` and with `-n` and `-p`.
* `xcmpong_exitFailure`: `main`'s exit status, for every launch it makes.
-/

namespace Xcm.Pong

/-! ### `parse_int` -/

/-- `INT_MIN` on the target, `-2 ^ 31`. -/
def intMin : Int := -2147483648

/-- `LONG_MAX` on the target. -/
def longMax : Nat := 2 ^ 63 - 1

/-- `isspace` in the C locale: a blank, or one of `'\t'`, `'\n'`, `'\v'`, `'\f'`, `'\r'`. -/
def isSpace (c : Char) : Bool := c.toNat == 32 || (9 ≤ c.toNat && c.toNat ≤ 13)

/-- `isdigit`: one of `'0'` to `'9'`. -/
def isDigit (c : Char) : Bool := 48 ≤ c.toNat && c.toNat ≤ 57

/-- The value of a string of decimal digits. -/
def digitsValue (ds : List Char) : Nat :=
  ds.foldl (fun acc d => 10 * acc + (d.toNat - '0'.toNat)) 0

/-- Modelled from the C library's contract: `strtol(s, &end, 10)`. Blanks, a sign, then
decimal digits: their value, clamped to the range of `long`, and the number of characters
read up to `end`; with no digits, `0` and `end = s`. -/
def strtol (s : List Char) : Int × Nat :=
  let blanks := (s.takeWhile isSpace).length
  let t := s.drop blanks
  let sign := match t with
    | '-' :: _ | '+' :: _ => 1
    | _ => 0
  let ds := (t.drop sign).takeWhile isDigit
  if ds = [] then (0, 0) else
  let v := digitsValue ds
  (if t.head? = some '-' then -(min v (longMax + 1) : Nat) else (min v longMax : Nat),
    blanks + sign + ds.length)

/-- The conversion of a `long` to an `int`, which gcc defines as reduction modulo
`2 ^ 32` into the range of `int`. -/
def toCInt (v : Int) : Int := (v + 2147483648) % 4294967296 - 2147483648

/-- `KILO`, `MEGA`, `GIGA`. -/
def kilo : Int := 1000
def mega : Int := 1000 * kilo
def giga : Int := 1000 * mega

/-- The `switch` of `get_prefix` on a last character. -/
def multiplierOf : Char → Int
  | 'k' => kilo
  | 'M' => mega
  | 'G' => giga
  | _ => 1

/-- `get_prefix(s)`: the multiplier the last character of `s` names, `1` if none, and `s`
with that character cut (`s[strlen(s)-1] = '\0'`) when it names one. -/
def getPrefix (s : List Char) : Int × List Char :=
  let mult := match s.getLast? with
    | some c => multiplierOf c
    | none => 1
  (mult, if mult ≠ 1 then s.dropLast else s)

/-- How `main` ends before it runs anything: with a message and `EXIT_FAILURE`; with the
usage text and `EXIT_SUCCESS` (`true`) or `EXIT_FAILURE`; or in undefined behaviour, on an
`int` multiplication that overflows. -/
inductive Exit
  | failure (msg : String)
  | usage (success : Bool)
  | overflow
  deriving DecidableEq, Repr

/-- `parse_int(int_str)`. The value is `prefix*value`, an `int` product of the multiplier
and what `strtol` read, converted to `int`; the string must be read to its end, once
`get_prefix` has cut the multiplier's letter. -/
def parseInt (s : List Char) : Except Exit Int :=
  if s.length = 0 then .error (.failure "Null string is not an integer.") else
  let (mult, s) := getPrefix s
  let (v, len) := strtol s
  let value := toCInt v
  if len = s.length then
    if intMin ≤ mult * value ∧ mult * value ≤ intMax then .ok (mult * value) else .error .overflow
  else .error (.failure ("\"" ++ String.mk s ++ "\" is not an integer."))

/-! ### Decimal numerals -/

theorem toCInt_bounds (v : Int) : intMin ≤ toCInt v ∧ toCInt v ≤ intMax := by
  unfold toCInt intMin intMax
  omega

theorem digitChar_lt_ten : ∀ d < 10,
    isDigit (Nat.digitChar d) ∧ (Nat.digitChar d).toNat - '0'.toNat = d := by
  decide

theorem digitsValue_concat (e : List Char) (d : Char) :
    digitsValue (e ++ [d]) = 10 * digitsValue e + (d.toNat - '0'.toNat) :=
  List.foldl_concat _ _ _ _

/-- `Nat.toDigitsCore` with fuel enough writes decimal digits of value `n` before `ds`. -/
theorem toDigitsCore_ten : ∀ (fuel n : Nat) (ds : List Char), n < fuel →
    ∃ e, Nat.toDigitsCore 10 fuel n ds = e ++ ds ∧ e ≠ [] ∧ (∀ c ∈ e, isDigit c) ∧
      digitsValue e = n
  | 0, _, _, h => absurd h (Nat.not_lt_zero _)
  | fuel + 1, n, ds, h => by
    have hd := digitChar_lt_ten (n % 10) (Nat.mod_lt _ (by decide))
    rw [Nat.toDigitsCore]
    split_ifs with h0
    · refine ⟨[Nat.digitChar (n % 10)], rfl, List.cons_ne_nil _ _, by simpa using hd.1, ?_⟩
      rw [← List.nil_append [_], digitsValue_concat, hd.2]
      simp [digitsValue]; omega
    · obtain ⟨e, he, hne, hdig, hval⟩ := toDigitsCore_ten fuel (n / 10) _ (by omega)
      refine ⟨e ++ [Nat.digitChar (n % 10)], by rw [he, List.append_assoc]; rfl, by simp, ?_, ?_⟩
      · intro c hc
        rcases List.mem_append.mp hc with hc | hc
        · exact hdig c hc
        · rw [List.mem_singleton.mp hc]; exact hd.1
      · rw [digitsValue_concat, hval, hd.2]; omega

theorem ne_of_isDigit {c d : Char} (hc : isDigit c) (hd : ¬ isDigit d) : c ≠ d := by
  rintro rfl; exact hd hc

/-- `strtol` reads a string of digits whole. -/
theorem strtol_digits {e : List Char} (hne : e ≠ []) (hdig : ∀ c ∈ e, isDigit c) :
    strtol e = (((min (digitsValue e) longMax : Nat) : Int), e.length) := by
  obtain ⟨x, xs, rfl⟩ := List.exists_cons_of_ne_nil hne
  have hx := hdig x (List.mem_cons_self _ _)
  have hsp : isSpace x = false := by
    simp only [isDigit, Bool.and_eq_true, decide_eq_true_eq] at hx
    simp only [isSpace, Bool.or_eq_false_iff, beq_eq_false_iff_ne, Bool.and_eq_false_imp,
      decide_eq_true_eq, decide_eq_false_iff_not]
    omega
  have hm : x ≠ '-' := ne_of_isDigit hx (by decide)
  have hp : x ≠ '+' := ne_of_isDigit hx (by decide)
  have hall : (x :: xs).takeWhile isDigit = x :: xs := List.takeWhile_eq_self_iff.mpr hdig
  simp [strtol, List.takeWhile_cons_of_neg (by simp [hsp] : ¬ isSpace x = true), hm, hp, hall]

theorem multiplierOf_of_isDigit {c : Char} (hc : isDigit c) : multiplierOf c = 1 := by
  have hk := ne_of_isDigit hc (d := 'k') (by decide)
  have hM := ne_of_isDigit hc (d := 'M') (by decide)
  have hG := ne_of_isDigit hc (d := 'G') (by decide)
  unfold multiplierOf; split <;> simp_all

/-- `parse_int` on a string that `strtol` reads to its end once `get_prefix` has cut its
multiplier's letter. -/
theorem parseInt_of_read {s s' : List Char} {mult v : Int} (hs : s ≠ [])
    (hp : getPrefix s = (mult, s')) (hr : strtol s' = (v, s'.length)) :
    parseInt s = if intMin ≤ mult * toCInt v ∧ mult * toCInt v ≤ intMax
      then .ok (mult * toCInt v) else .error .overflow := by
  rw [parseInt, if_neg (mt List.length_eq_zero.mp hs), hp]
  simp only [hr, if_true]

/-- **`parse_int` on a decimal numeral.** The numeral of `n` reads as `n` converted to
`int`, reduced modulo `2 ^ 32`, once `strtol` has clamped it to `LONG_MAX`; followed by
`k`, `M` or `G`, as that times the multiplier, a product that is undefined behaviour when
it overflows an `int`. -/
theorem parseInt_toDigits (n : Nat) :
    parseInt (Nat.toDigits 10 n) = .ok (toCInt (min n longMax : Nat)) ∧
    ∀ c, multiplierOf c ≠ 1 →
      parseInt (Nat.toDigits 10 n ++ [c]) =
        if intMin ≤ multiplierOf c * toCInt (min n longMax : Nat) ∧
            multiplierOf c * toCInt (min n longMax : Nat) ≤ intMax
          then .ok (multiplierOf c * toCInt (min n longMax : Nat)) else .error .overflow := by
  obtain ⟨e, he, hne, hdig, hval⟩ := toDigitsCore_ten (n + 1) n [] (Nat.lt_succ_self n)
  rw [List.append_nil] at he
  rw [Nat.toDigits, he]
  have hs := strtol_digits hne hdig
  rw [hval] at hs
  refine ⟨?_, fun c hc => ?_⟩
  · have hlast : getPrefix e = (1, e) := by
      simp [getPrefix, List.getLast?_eq_getLast e hne,
        multiplierOf_of_isDigit (hdig _ (List.getLast_mem hne))]
    rw [parseInt_of_read hne hlast hs, Int.one_mul]
    exact if_pos (toCInt_bounds _)
  · have hpre : getPrefix (e ++ [c]) = (multiplierOf c, e) := by
      simp [getPrefix, List.getLast?_concat, hc]
    exact parseInt_of_read (by simp) hpre hs

/-- `4294967297` reads as `1`, and `3G` overflows an `int`. -/
theorem numerals_wrap_and_overflow :
    parseInt (Nat.toDigits 10 4294967297) = .ok (toCInt (min 4294967297 longMax : Nat)) ∧
    toCInt (min 4294967297 longMax : Nat) = 1 ∧ multiplierOf 'G' ≠ 1 ∧
    parseInt (Nat.toDigits 10 3 ++ ['G']) =
      (if intMin ≤ multiplierOf 'G' * toCInt (min 3 longMax : Nat) ∧
          multiplierOf 'G' * toCInt (min 3 longMax : Nat) ≤ intMax
        then .ok (multiplierOf 'G' * toCInt (min 3 longMax : Nat)) else .error .overflow) ∧
    parseInt (Nat.toDigits 10 3 ++ ['G']) = .error .overflow :=
  ⟨(parseInt_toDigits 4294967297).1, by decide, by decide,
    (parseInt_toDigits 3).2 'G' (by decide), rfl⟩

/-- A lone multiplier letter is read as the numeral zero: `strtol` reads nothing of the
empty string that `get_prefix` leaves, which ends there. -/
example : parseInt ['k'] = .ok 0 := rfl

/-! ### The option loop -/

/-- What `main` tests of a `double`: below zero, above zero, or neither (a zero, or a NaN,
for which both comparisons are false). A product with a positive multiplier keeps it. -/
inductive Sign
  | neg
  | pos
  | neither
  deriving DecidableEq, Repr

/-- `parse_float(float_str)`, where `strtof s` is what `strtof` returns of `s`, by its sign,
with the number of characters it reads. -/
def parseFloat (strtof : List Char → Sign × Nat) (s : List Char) : Except Exit Sign :=
  if s.length = 0 then .error (.failure "Null string is not a floating point number.") else
  let (_, s) := getPrefix s
  let (v, len) := strtof s
  if len = s.length then .ok v
  else .error (.failure ("\"" ++ String.mk s ++ "\" is not an floating point number."))

/-- What `getopt(argc, argv, "cspn:m:b:i:h")` returns, one option at a time, with `optarg`
for the options that take one: `'?'`, here `other`, for an option not in the string or one
missing its argument. -/
inductive Opt
  | c
  | s
  | p
  | n (arg : List Char)
  | m (arg : List Char)
  | b (arg : List Char)
  | i (arg : List Char)
  | h
  | other
  deriving DecidableEq, Repr

/-- `enum client_mode`. -/
inductive ClientMode
  | latency
  | throughput
  deriving DecidableEq, Repr

/-- `DEFAULT_THROUGHPUT_ROUNDTRIPS`. -/
def defaultThroughputRoundtrips : Int := 100000

/-- `DEFAULT_LATENCY_ROUNDTRIPS`. -/
def defaultLatencyRoundtrips : Int := intMax

/-- `DEFAULT_MSG_SIZE`. -/
def defaultMsgSize : Int := 100

/-- `DEFAULT_BATCH_SIZE`. -/
def defaultBatchSize : Int := 1

/-- The local variables of `main` that its option loop sets, with what its checks keep of
them: the numbers of round trips, the message size and the batch size are at least one. -/
structure Settings where
  client : Bool
  server : Bool
  clientMode : ClientMode
  numRt : Int
  msgSize : Int
  batchSize : Int
  interval : Sign
  numRt_pos : 0 < numRt
  msgSize_pos : 0 < msgSize
  batchSize_pos : 0 < batchSize

/-- `main`'s variables before its option loop; `interval` is `-1`. -/
def Settings.init : Settings :=
  ⟨false, false, .throughput, defaultThroughputRoundtrips, defaultMsgSize, defaultBatchSize,
    .neg, by decide, by decide, by decide⟩

variable (strtof : List Char → Sign × Nat)

/-- One pass of `main`'s option loop: the `switch` on what `getopt` returned. `-p` sets the
latency mode and, when the number of round trips is still the throughput mode's default,
the latency mode's. An option `'?'` has no case. -/
def Settings.opt (st : Settings) : Opt → Except Exit Settings
  | .c => .ok { st with client := true }
  | .s => .ok { st with server := true }
  | .p =>
    if h : st.numRt = defaultThroughputRoundtrips then
      .ok { st with clientMode := .latency, numRt := defaultLatencyRoundtrips,
                    numRt_pos := by decide }
    else .ok { st with clientMode := .latency }
  | .n arg => do
    let v ← parseInt arg
    if h : v ≤ 0 then .error (.failure "The number of roundtrips must be at least 1.")
    else .ok { st with numRt := v, numRt_pos := by omega }
  | .m arg => do
    let v ← parseInt arg
    if h : v ≤ 0 then .error (.failure "Message size must be at least 1.")
    else .ok { st with msgSize := v, msgSize_pos := by omega }
  | .b arg => do
    let v ← parseInt arg
    if h : v < 1 then .error (.failure "Batch size must be at least 1.")
    else .ok { st with batchSize := v, batchSize_pos := by omega }
  | .i arg => do
    let v ← parseFloat strtof arg
    if v = .neg then .error (.failure "Interval must be positive.")
    else .ok { st with interval := v }
  | .h => .error (.usage true)
  | .other => .ok st

/-- `main`'s option loop over the options `getopt` returns. -/
def Settings.opts : Settings → List Opt → Except Exit Settings
  | st, [] => .ok st
  | st, o :: os => do
    let st ← st.opt strtof o
    st.opts os

/-! ### What `main` runs -/

/-- How `run_client` is called: the throughput client or the latency client, with the
settings `main` has checked, and the latency client with its interval. -/
inductive ClientRun
  | throughput (cfg : ClientCfg)
  | latency (cfg : ClientCfg) (interval : Sign)

/-- What `main` starts: `run_server` or not, and `run_client` or not. -/
structure Launch where
  server : Bool
  client : Option ClientRun

/-- `main` after its option loop: with neither `-c` nor `-s`, it runs both. -/
def Settings.defaultRoles (st : Settings) : Settings :=
  if !st.client && !st.server then { st with client := true, server := true } else st

/-- A latency client without `-i` sleeps `DEFAULT_INTERVAL`. -/
def Settings.defaultInterval (st : Settings) : Settings :=
  if st.client && st.clientMode = .latency && st.interval = .neg then { st with interval := .pos }
  else st

/-- `main`'s test for a usage error, with `num_args = argc - optind` arguments left: a
client needs exactly one and, in throughput mode, no interval; a server alone exactly one. -/
def Settings.usageError (st : Settings) (numArgs : Nat) : Bool :=
  (st.client && (numArgs != 1 || (st.clientMode = .throughput && st.interval = .pos))) ||
    (!st.client && st.server && numArgs != 1)

/-- How `main` calls `run_client`; a batch size of at most zero becomes one. -/
def Settings.clientRun (st : Settings) : ClientRun :=
  let batchSize := if st.batchSize ≤ 0 then 1 else st.batchSize
  let cfg : ClientCfg := ⟨st.numRt.toNat, st.msgSize.toNat, batchSize.toNat,
    by have := st.numRt_pos; omega, by have := st.msgSize_pos; omega,
    by have := st.batchSize_pos; show 0 < (if st.batchSize ≤ 0 then 1 else st.batchSize).toNat
       split <;> omega⟩
  match st.clientMode with
  | .throughput => .throughput cfg
  | .latency => .latency cfg st.interval

/-- The rest of `main` once its options are read, up to `run_server` and `run_client`. -/
def launch (st : Settings) (numArgs : Nat) : Except Exit Launch :=
  let st := st.defaultRoles.defaultInterval
  if st.usageError numArgs then .error (.usage false)
  else .ok ⟨st.server, if st.client then some st.clientRun else none⟩

/-- `main` up to `run_server` and `run_client`, given what `getopt` returns and the number
of arguments left after the options. -/
def xcmpong (opts : List Opt) (numArgs : Nat) : Except Exit Launch := do
  let st ← Settings.init.opts strtof opts
  launch st numArgs

/-- `main`'s last test, after `waitpid`: whether it exits with `EXIT_FAILURE`, given
`WEXITSTATUS` of the statuses `client_st` and `server_st`, each `none` when `waitpid` never
wrote it, which makes the test's result indeterminate (`none`) where it is read. The
client's status is read under `server` and the server's under `client`. -/
def exitFailure (client server : Bool) (clientSt serverSt : Option Nat) : Option Bool :=
  match (if client then serverSt.map (fun st => st != 0) else some false) with
  | some true => some true
  | some false => if server then clientSt.map (fun st => st != 0) else some false
  | none => none

/-- The statuses `main` has after it waits: `client_st` from the client if it ran one, and
`server_st` from the server if it ran one. -/
def Launch.exitFailure (l : Launch) (clientSt serverSt : Nat) : Option Bool :=
  Xcm.Pong.exitFailure l.client.isSome l.server (if l.client.isSome then some clientSt else none)
    (if l.server then some serverSt else none)

/-! ### What the options do -/

section Options

variable {strtof}

theorem Settings.opts_append : ∀ (st : Settings) (xs ys : List Opt),
    st.opts strtof (xs ++ ys) = st.opts strtof xs >>= fun st => st.opts strtof ys
  | _, [], _ => rfl
  | st, o :: xs, ys => by
    simp only [List.cons_append, Settings.opts]
    cases st.opt strtof o with
    | error e => rfl
    | ok st' => exact Settings.opts_append st' xs ys

/-- **An option `getopt` rejects is ignored.** An option not in the option string, or one
missing its argument, for which `getopt` returns `'?'`, changes nothing of what `main`
does: it runs as without it. -/
theorem xcmpong_other (os₁ os₂ : List Opt) (numArgs : Nat) :
    xcmpong strtof (os₁ ++ .other :: os₂) numArgs = xcmpong strtof (os₁ ++ os₂) numArgs := by
  simp only [xcmpong, Settings.opts_append]
  rfl

/-- **`-p` takes back an `-n` of 100000.** After `-n` with a value `v` at least one, `-p`
keeps `v` as the number of round trips, unless `v` is 100000, the throughput mode's
default, which `-p` replaces by the latency mode's `INT_MAX`; in the other order, `-n`
sets `v` whatever it is. -/
theorem opts_n_p (st : Settings) {arg : List Char} {v : Int} (hv : parseInt arg = .ok v)
    (hpos : 0 < v) :
    (st.opts strtof [.n arg, .p]).map Settings.numRt =
      .ok (if v = defaultThroughputRoundtrips then defaultLatencyRoundtrips else v) ∧
    (st.opts strtof [.p, .n arg]).map Settings.numRt = .ok v := by
  have hv' : ¬ v ≤ 0 := by omega
  constructor
  · simp only [Settings.opts, Settings.opt, hv, ok_bind, dif_neg hv']
    split <;> rfl
  · simp only [Settings.opts, Settings.opt, hv, ok_bind, dif_neg hv']
    split <;> rfl

@[simp] theorem Settings.defaultInterval_client (st : Settings) :
    st.defaultInterval.client = st.client := by
  unfold Settings.defaultInterval; split <;> rfl

@[simp] theorem Settings.defaultInterval_server (st : Settings) :
    st.defaultInterval.server = st.server := by
  unfold Settings.defaultInterval; split <;> rfl

theorem Settings.defaultRoles_roles (st : Settings) :
    (st.defaultRoles.client || st.defaultRoles.server) = true := by
  unfold Settings.defaultRoles
  split
  · rfl
  · rename_i h
    revert h
    cases st.client <;> cases st.server <;> decide

/-- `main` runs a client or a server, or both. -/
theorem launch_runs {st : Settings} {numArgs : Nat} {l : Launch}
    (h : launch st numArgs = .ok l) : (l.client.isSome || l.server) = true := by
  simp only [launch] at h
  split at h
  · cases h
  · cases h
    have hr := st.defaultRoles_roles
    simp only [Settings.defaultInterval_client, Settings.defaultInterval_server]
    revert hr
    cases st.defaultRoles.client <;> cases st.defaultRoles.server <;> simp

/-- **`main`'s exit status reads the wrong child's.** Whatever options `main` accepts, when
it runs both a client and a server it exits with failure exactly when one of them failed;
when it runs only one, its last test reads the status of the one it did not run, which
`waitpid` never wrote, and never the status of the one it ran: its exit status is then
indeterminate, whatever its child's. -/
theorem xcmpong_exitFailure {opts : List Opt} {numArgs : Nat} {l : Launch}
    (h : xcmpong strtof opts numArgs = .ok l) (cs ss : Nat) :
    l.exitFailure cs ss =
      if l.client.isSome && l.server then some (cs != 0 || ss != 0) else none := by
  simp only [xcmpong] at h
  rcases hst : Settings.init.opts strtof opts with e | st <;> rw [hst] at h
  · cases h
  have hr := launch_runs (l := l) h
  obtain ⟨server, client⟩ := l
  cases client <;> cases server <;> simp [Launch.exitFailure, exitFailure] at hr ⊢
  cases ss <;> simp

end Options

end Xcm.Pong
