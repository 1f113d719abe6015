import MiniHil.Foundation.Json

/-! # The arguments of the daemon

The argument loop of `main`, and the options that an argument vector consists of.
-/
namespace MiniHil

structure Options where
  useSsl : Bool := false
  useMtls : Bool := false
  caCertPath : Bytes := ascii "ca.crt"
  caKeyPath : Bytes := ascii "ca.key"
  certPath : Bytes := ascii "server.crt"
  keyPath : Bytes := ascii "server.key"
  clientCertPath : Bytes := ascii "client.crt"
  clientKeyPath : Bytes := ascii "client.key"
  deriving DecidableEq, Repr

def isHelp (arg : Bytes) : Bool := arg = ascii "--help" || arg = ascii "-h"

/-- The loop over the arguments after the program's name; `none` where it prints the help and returns. -/
def parseArguments (o : Options) : List Bytes → Option Options
  | [] => some o
  | arg :: rest =>
    if arg = ascii "--ssl" then parseArguments { o with useSsl := true } rest
    else if arg = ascii "--mtls" then parseArguments { o with useSsl := true, useMtls := true } rest
    else match rest with
      | value :: rest' =>
        if arg = ascii "--ca" then parseArguments { o with caCertPath := value } rest'
        else if arg = ascii "--cert" then parseArguments { o with certPath := value } rest'
        else if arg = ascii "--key" then parseArguments { o with keyPath := value } rest'
        else if isHelp arg then none
        else parseArguments o (value :: rest')
      | [] => if isHelp arg then none else some o

def takesValue (arg : Bytes) : Bool := arg = ascii "--ca" || arg = ascii "--cert" || arg = ascii "--key"

/-- The arguments in option position, each with the value that it consumes. -/
def options : List Bytes → List (Bytes × Option Bytes)
  | [] => []
  | arg :: rest => match rest with
    | [] => [(arg,none)]
    | value :: rest' => if takesValue arg then (arg,some value) :: options rest' else (arg,none) :: options (value :: rest')

def applyOption (o : Options) : Bytes × Option Bytes → Options
  | (arg,none) =>
    if arg = ascii "--ssl" then { o with useSsl := true }
    else if arg = ascii "--mtls" then { o with useSsl := true, useMtls := true }
    else o
  | (arg,some value) =>
    if arg = ascii "--ca" then { o with caCertPath := value }
    else if arg = ascii "--cert" then { o with certPath := value }
    else if arg = ascii "--key" then { o with keyPath := value }
    else o

def caValue (p : Bytes × Option Bytes) : Option Bytes := if p.1 = ascii "--ca" then p.2 else none

/-- The CA file that the last `--ca` names. -/
def lastCa (argv : List Bytes) : Bytes := (((options argv).filterMap caValue).getLast?).getD (ascii "ca.crt")

variable {o o' : Options} {argv rest : List Bytes} {arg value : Bytes}

theorem options_flag (h : takesValue arg = false) : options (arg :: rest) = (arg,none) :: options rest := by
  cases rest with
  | nil => rfl
  | cons value rest => rw [options, if_neg (by rw [h]; exact Bool.false_ne_true)]

theorem options_value (h : takesValue arg = true) :
    options (arg :: value :: rest) = (arg,some value) :: options rest := by
  rw [options, if_pos h]

theorem applyOption_other (hssl : arg ≠ ascii "--ssl") (hmtls : arg ≠ ascii "--mtls") : applyOption o (arg,none) = o := by
  rw [applyOption, if_neg hssl, if_neg hmtls]

theorem parseArguments_eq (h : parseArguments o argv = some o') : o' = (options argv).foldl applyOption o := by
  fun_induction parseArguments o argv with
  | case1 o => exact (Option.some.inj h).symm
  | case2 o rest ih | case3 o rest _ ih =>
    rw [options_flag rfl]
    exact ih h
  | case4 o value rest _ _ ih | case5 o value rest _ _ _ ih | case6 o value rest _ _ _ _ ih =>
    rw [options_value rfl]
    exact ih h
  | case7 | case9 => cases h
  | case8 o arg hssl hmtls value rest hca hcert hkey _ ih =>
    have hflag : takesValue arg = false := by simp [takesValue, hca, hcert, hkey]
    rw [options_flag hflag, List.foldl_cons, applyOption_other hssl hmtls]
    exact ih h
  | case10 o arg hssl hmtls _ =>
    rw [options, List.foldl_cons, applyOption_other hssl hmtls]
    exact (Option.some.inj h).symm

theorem applyOption_mtls (p : Bytes × Option Bytes) (h : o.useSsl = true ∧ o.useMtls = true) :
    (applyOption o p).useSsl = true ∧ (applyOption o p).useMtls = true := by
  rcases p with ⟨arg,_ | value⟩
  · rw [applyOption]
    split_ifs
    · exact ⟨rfl,h.2⟩
    · exact ⟨rfl,rfl⟩
    · exact h
  · rw [applyOption]
    split_ifs <;> exact h

theorem applyOption_caCertPath (p : Bytes × Option Bytes) :
    (applyOption o p).caCertPath = (caValue p).getD o.caCertPath := by
  rcases p with ⟨arg,_ | value⟩
  · have hnone : caValue (arg,none) = none := by unfold caValue; split_ifs <;> rfl
    rw [hnone]
    rw [applyOption]
    split_ifs <;> rfl
  · rw [applyOption, caValue]
    split_ifs <;> rfl

theorem foldl_mtls {opts : List (Bytes × Option Bytes)}
    (h : (ascii "--mtls",none) ∈ opts ∨ o.useSsl = true ∧ o.useMtls = true) :
    (opts.foldl applyOption o).useSsl = true ∧ (opts.foldl applyOption o).useMtls = true := by
  induction opts generalizing o with
  | nil => exact h.resolve_left List.not_mem_nil
  | cons p opts ih =>
    apply ih
    rcases h with h | h
    · rcases List.mem_cons.mp h with rfl | h
      · exact .inr ⟨rfl,rfl⟩
      · exact .inl h
    · exact .inr (applyOption_mtls p h)

theorem foldl_caCertPath (opts : List (Bytes × Option Bytes)) :
    (opts.foldl applyOption o).caCertPath = ((opts.filterMap caValue).getLast?).getD o.caCertPath := by
  induction opts generalizing o with
  | nil => rfl
  | cons p opts ih =>
    rw [List.foldl_cons, ih, applyOption_caCertPath]
    cases hp : caValue p with
    | none => rw [List.filterMap_cons_none hp]; rfl
    | some value =>
      rw [List.filterMap_cons_some hp, List.getLast?_cons]
      rfl

theorem parseArguments_mtls (h : parseArguments o argv = some o') (hm : (ascii "--mtls",none) ∈ options argv) :
    o'.useSsl = true ∧ o'.useMtls = true := by
  rw [parseArguments_eq h]
  exact foldl_mtls (.inl hm)

theorem parseArguments_caCertPath (h : parseArguments {} argv = some o) : o.caCertPath = lastCa argv := by
  rw [parseArguments_eq h]
  exact foldl_caCertPath _

end MiniHil
