/-
GvisorTapVsock.Cmd.CommandLineTheorems — what `ToCmdline` prints, gvproxy's
`main` reads.

The library that builds a command and the flag set of `main` share nothing but
the names of the flags. The printed command line is a list of settings
(`toCmdline_eq`), each of a flag that `main` has registered (`settings_taken`);
so it is read to its end, and each variable gets the texts of its own flag,
whatever the order in which the two maps were visited (`textsOf_settings`).

What a caller gave to a flag is read off the calls (`givenTo`); the fields of
the command follow it, one call at a time.
-/
import GvisorTapVsock.Cmd.Gvproxy
import GvisorTapVsock.Types.GvproxyCommand
import Mathlib.Data.List.Induction

namespace GvisorTapVsock.Types.GvproxyCommand

open GvisorTapVsock.Go

/-! ## What the calls give to the flags -/

/-- The flag and the text of a call that adds one. -/
def Call.given : Call → Option (String × String)
  | .addEndpoint endpoint => some ("listen", endpoint)
  | .addVpnkitSocket socket => some ("listen-vpnkit", socket)
  | .addQemuSocket socket => some ("listen-qemu", socket)
  | .addBessSocket socket => some ("listen-bess", socket)
  | .addStdioSocket socket => some ("listen-stdio", socket)
  | .addVfkitSocket socket => some ("listen-vfkit", socket)
  | .addForwardSock socket => some ("forward-sock", socket)
  | .addForwardDest dest => some ("forward-dest", dest)
  | .addForwardUser user => some ("forward-user", user)
  | .addForwardIdentity identity => some ("forward-identity", identity)
  | .debug _ => none
  | .mtu _ => none
  | .sshPort _ => none
  | .pidFile _ => none

/-- The text that a call gives to a flag. -/
def Call.text (flag : String) (a : Call) : Option String :=
  (a.given.filter (fun p => p.1 = flag)).map Prod.snd

/-- The texts given to a flag, in the order of the calls. -/
def givenTo (flag : String) (calls : List Call) : List String := calls.filterMap (Call.text flag)

/-- The last text given to a flag, empty if there is none. -/
def lastGivenTo (flag : String) (calls : List Call) : String :=
  (givenTo flag calls).getLast?.getD ""

/-- The flags of sockets. -/
def socketFlags : List String :=
  ["listen-vpnkit", "listen-qemu", "listen-bess", "listen-stdio", "listen-vfkit"]

/-- The flags of forwards. -/
def forwardFlags : List String :=
  ["forward-sock", "forward-dest", "forward-user", "forward-identity"]

theorem givenTo_concat (flag : String) (calls : List Call) (a : Call) :
    givenTo flag (calls ++ [a]) = givenTo flag calls ++ (a.text flag).toList := by
  rw [givenTo, List.filterMap_append]
  cases h : a.text flag <;> simp [givenTo, h]

theorem built_concat (c : GvproxyCommand) (calls : List Call) (a : Call) :
    built c (calls ++ [a]) = (built c calls).call a := by
  simp [built]

/-! ## One call -/

theorem checkSocketsInitialized_eq (c : GvproxyCommand) : c.checkSocketsInitialized = c := by
  unfold checkSocketsInitialized
  split
  · rw [← GoMap.eq_empty_of_length ‹_›]
  · rfl

theorem checkForwardInfoInitialized_eq (c : GvproxyCommand) :
    c.checkForwardInfoInitialized = c := by
  unfold checkForwardInfoInitialized
  split
  · rw [← GoMap.eq_empty_of_length ‹_›]
  · rfl

theorem addEndpoint_eq (c : GvproxyCommand) (endpoint : String) :
    c.addEndpoint endpoint = { c with endpoints := c.endpoints ++ [endpoint] } := by
  unfold addEndpoint
  split
  · have hempty : c.endpoints = [] := List.eq_nil_of_length_eq_zero (by omega)
    rw [hempty]
  · rfl

theorem addSocket_eq (flag : String) (c : GvproxyCommand) (socket : String) :
    addSocket flag c socket = { c with sockets := c.sockets.insert flag socket } := by
  simp only [addSocket, checkSocketsInitialized_eq]

theorem addForward_eq (flag : String) (c : GvproxyCommand) (value : String) :
    addForward flag c value =
      { c with
        forwardInfo :=
          c.forwardInfo.insert flag ((c.forwardInfo.lookup flag).getD [] ++ [value]) } := by
  simp only [addForward, checkForwardInfoInitialized_eq, addForwardInfo]

/-- What a call changes: nothing that is added to, or the field of the flag it
gives a text to. -/
theorem call_moves (c : GvproxyCommand) (a : Call) :
    (a.given = none ∧ (c.call a).endpoints = c.endpoints ∧ (c.call a).sockets = c.sockets ∧
        (c.call a).forwardInfo = c.forwardInfo) ∨
      (∃ text, a.given = some ("listen", text) ∧
        c.call a = { c with endpoints := c.endpoints ++ [text] }) ∨
      (∃ flag ∈ socketFlags, ∃ text, a.given = some (flag, text) ∧
        c.call a = { c with sockets := c.sockets.insert flag text }) ∨
      ∃ flag ∈ forwardFlags, ∃ text, a.given = some (flag, text) ∧
        c.call a =
          { c with
            forwardInfo :=
              c.forwardInfo.insert flag ((c.forwardInfo.lookup flag).getD [] ++ [text]) } := by
  cases a with
  | debug value => exact .inl ⟨rfl, rfl, rfl, rfl⟩
  | mtu value => exact .inl ⟨rfl, rfl, rfl, rfl⟩
  | sshPort value => exact .inl ⟨rfl, rfl, rfl, rfl⟩
  | pidFile value => exact .inl ⟨rfl, rfl, rfl, rfl⟩
  | addEndpoint endpoint => exact .inr (.inl ⟨_, rfl, addEndpoint_eq c _⟩)
  | addVpnkitSocket socket =>
    exact .inr (.inr (.inl ⟨_, by decide, _, rfl, addSocket_eq _ c _⟩))
  | addQemuSocket socket => exact .inr (.inr (.inl ⟨_, by decide, _, rfl, addSocket_eq _ c _⟩))
  | addBessSocket socket => exact .inr (.inr (.inl ⟨_, by decide, _, rfl, addSocket_eq _ c _⟩))
  | addStdioSocket socket => exact .inr (.inr (.inl ⟨_, by decide, _, rfl, addSocket_eq _ c _⟩))
  | addVfkitSocket socket => exact .inr (.inr (.inl ⟨_, by decide, _, rfl, addSocket_eq _ c _⟩))
  | addForwardSock socket => exact .inr (.inr (.inr ⟨_, by decide, _, rfl, addForward_eq _ c _⟩))
  | addForwardDest dest => exact .inr (.inr (.inr ⟨_, by decide, _, rfl, addForward_eq _ c _⟩))
  | addForwardUser user => exact .inr (.inr (.inr ⟨_, by decide, _, rfl, addForward_eq _ c _⟩))
  | addForwardIdentity identity =>
    exact .inr (.inr (.inr ⟨_, by decide, _, rfl, addForward_eq _ c _⟩))

theorem text_eq {a : Call} {flag text : String} (h : a.given = some (flag, text)) (flag' : String) :
    a.text flag' = if flag = flag' then some text else none := by
  by_cases heq : flag = flag' <;> simp [Call.text, h, heq]

theorem text_of_none {a : Call} (h : a.given = none) (flag : String) : a.text flag = none := by
  simp [Call.text, h]

theorem endpoints_call (c : GvproxyCommand) (a : Call) :
    (c.call a).endpoints = c.endpoints ++ (a.text "listen").toList := by
  obtain ⟨hgiven, hend, _, _⟩ | ⟨text, hgiven, hcall⟩ | ⟨flag, hflag, text, hgiven, hcall⟩ |
    ⟨flag, hflag, text, hgiven, hcall⟩ := call_moves c a
  · rw [text_of_none hgiven, hend]
    simp
  · rw [text_eq hgiven, hcall]
    rfl
  · have hne : flag ≠ "listen" := fun h => absurd (h ▸ hflag) (by decide)
    simp [text_eq hgiven, hcall, hne]
  · have hne : flag ≠ "listen" := fun h => absurd (h ▸ hflag) (by decide)
    simp [text_eq hgiven, hcall, hne]

theorem sockets_call (c : GvproxyCommand) (a : Call) {flag : String} (hflag : flag ∈ socketFlags) :
    (c.call a).sockets.lookup flag = (a.text flag).or (c.sockets.lookup flag) := by
  obtain ⟨hgiven, _, hsockets, _⟩ | ⟨text, hgiven, hcall⟩ | ⟨f, _, text, hgiven, hcall⟩ |
    ⟨f, hf, text, hgiven, hcall⟩ := call_moves c a
  · rw [text_of_none hgiven, hsockets]
    rfl
  · have hne : "listen" ≠ flag := fun h => absurd (h ▸ hflag) (by decide)
    simp [text_eq hgiven, hcall, hne]
  · rw [text_eq hgiven, hcall, GoMap.lookup_insert_eq]
    by_cases heq : f = flag
    · simp [heq]
    · simp [heq, Ne.symm heq]
  · have hne : f ≠ flag := by
      intro h
      exact absurd (h ▸ hf) ((by decide : ∀ x ∈ socketFlags, x ∉ forwardFlags) flag hflag)
    simp [text_eq hgiven, hcall, hne]

theorem forwardInfo_call (c : GvproxyCommand) (a : Call) {flag : String}
    (hflag : flag ∈ forwardFlags) :
    ((c.call a).forwardInfo.lookup flag).getD [] =
      (c.forwardInfo.lookup flag).getD [] ++ (a.text flag).toList := by
  obtain ⟨hgiven, _, _, hforward⟩ | ⟨text, hgiven, hcall⟩ | ⟨f, hf, text, hgiven, hcall⟩ |
    ⟨f, _, text, hgiven, hcall⟩ := call_moves c a
  · rw [text_of_none hgiven, hforward]
    simp
  · have hne : "listen" ≠ flag := fun h => absurd (h ▸ hflag) (by decide)
    simp [text_eq hgiven, hcall, hne]
  · have hne : f ≠ flag := by
      intro h
      exact absurd (h ▸ hf) ((by decide : ∀ x ∈ forwardFlags, x ∉ socketFlags) flag hflag)
    simp [text_eq hgiven, hcall, hne]
  · rw [text_eq hgiven, hcall, GoMap.lookup_insert_eq]
    by_cases heq : f = flag
    · subst heq
      simp
    · simp [heq, Ne.symm heq]

/-- The maps have the keys that the calls use, and no other. -/
structure Wf (c : GvproxyCommand) : Prop where
  sockets : ∀ flag ∉ socketFlags, c.sockets.lookup flag = none
  forwardInfo : ∀ flag ∉ forwardFlags, c.forwardInfo.lookup flag = none

theorem Wf.call {c : GvproxyCommand} (h : c.Wf) (a : Call) : (c.call a).Wf := by
  obtain ⟨_, _, hsockets, hforward⟩ | ⟨text, _, hcall⟩ | ⟨f, hf, text, _, hcall⟩ |
    ⟨f, hf, text, _, hcall⟩ := call_moves c a
  · exact ⟨hsockets ▸ h.sockets, hforward ▸ h.forwardInfo⟩
  · rw [hcall]
    exact ⟨h.sockets, h.forwardInfo⟩
  · rw [hcall]
    refine ⟨?_, h.forwardInfo⟩
    intro flag hflag
    have hne : flag ≠ f := fun heq => hflag (heq ▸ hf)
    rw [GoMap.lookup_insert_eq, if_neg hne, h.sockets flag hflag]
  · rw [hcall]
    refine ⟨h.sockets, ?_⟩
    intro flag hflag
    have hne : flag ≠ f := fun heq => hflag (heq ▸ hf)
    rw [GoMap.lookup_insert_eq, if_neg hne, h.forwardInfo flag hflag]

/-! ## Any number of calls -/

theorem endpoints_built (c : GvproxyCommand) (calls : List Call) :
    (built c calls).endpoints = c.endpoints ++ givenTo "listen" calls := by
  induction calls using List.reverseRecOn with
  | nil => simp [built, givenTo]
  | append_singleton calls a ih =>
    rw [built_concat, endpoints_call, ih, givenTo_concat, List.append_assoc]

theorem sockets_built (c : GvproxyCommand) (calls : List Call) {flag : String}
    (hflag : flag ∈ socketFlags) :
    (built c calls).sockets.lookup flag =
      (givenTo flag calls).getLast?.or (c.sockets.lookup flag) := by
  induction calls using List.reverseRecOn with
  | nil => rfl
  | append_singleton calls a ih =>
    rw [built_concat, sockets_call _ a hflag, ih, givenTo_concat]
    cases a.text flag <;> simp

theorem forwardInfo_built (c : GvproxyCommand) (calls : List Call) {flag : String}
    (hflag : flag ∈ forwardFlags) :
    ((built c calls).forwardInfo.lookup flag).getD [] =
      (c.forwardInfo.lookup flag).getD [] ++ givenTo flag calls := by
  induction calls using List.reverseRecOn with
  | nil => simp [built, givenTo]
  | append_singleton calls a ih =>
    rw [built_concat, forwardInfo_call _ a hflag, ih, givenTo_concat, List.append_assoc]

theorem Wf.built {c : GvproxyCommand} (h : c.Wf) (calls : List Call) : (built c calls).Wf := by
  induction calls using List.reverseRecOn with
  | nil => exact h
  | append_singleton calls a ih =>
    rw [built_concat]
    exact ih.call a

/-! ## The settings that are printed -/

/-- The settings of a command, flag by flag. -/
def settings (c : GvproxyCommand) (socketOrder forwardOrder : List String) : List Flag.Setting :=
  Flag.textSettings "listen" c.endpoints ++
    (if c.debug then [⟨"debug", none⟩] else []) ++
    [⟨"mtu", some (itoa c.mtu.toInt)⟩] ++
    [⟨"ssh-port", some (itoa c.sshPort.toInt)⟩] ++
    socketOrder.flatMap (fun flag => Flag.textSettings flag (c.sockets.lookup flag).toList) ++
    forwardOrder.flatMap
      (fun flag => Flag.textSettings flag ((c.forwardInfo.lookup flag).getD [])) ++
    Flag.textSettings "pid-file" [c.pidFile]

theorem toCmdline_eq (c : GvproxyCommand) (socketOrder forwardOrder : List String) :
    c.toCmdline socketOrder forwardOrder =
      Flag.cmdline (c.settings socketOrder forwardOrder) := by
  have hsockets : c.socketsToCmdline socketOrder = Flag.cmdline (socketOrder.flatMap
      (fun flag => Flag.textSettings flag (c.sockets.lookup flag).toList)) := by
    rw [Flag.cmdline_flatMap, socketsToCmdline]
    congr 1
    funext flag
    rw [Flag.cmdline_textSettings]
    cases c.sockets.lookup flag <;> simp
  have hforward : c.forwardInfoToCmdline forwardOrder = Flag.cmdline (forwardOrder.flatMap
      (fun flag => Flag.textSettings flag ((c.forwardInfo.lookup flag).getD []))) := by
    rw [Flag.cmdline_flatMap, forwardInfoToCmdline]
    congr 1
    funext flag
    rw [Flag.cmdline_textSettings]
    cases c.forwardInfo.lookup flag <;> rfl
  have hdebug : (if c.debug then ["-debug"] else []) =
      Flag.cmdline (if c.debug then [⟨"debug", none⟩] else []) := by
    cases c.debug <;> rfl
  simp only [settings, Flag.cmdline_append, toCmdline, hsockets, hforward, hdebug,
    endpointsToCmdline, Flag.cmdline_textSettings]
  simp [Flag.cmdline, Flag.Setting.args]

end GvisorTapVsock.Types.GvproxyCommand

namespace GvisorTapVsock.Cmd.Gvproxy

open GvisorTapVsock.Go
open GvisorTapVsock.Types
open GvisorTapVsock.Types.GvproxyCommand

/-! ## The flags of `main` -/

/-- The name a variable is registered with. -/
def Variable.flag : Variable → String
  | .showVersion => "version"
  | .endpoints => "listen"
  | .debug => "debug"
  | .mtu => "mtu"
  | .sshPort => "ssh-port"
  | .vpnkitSocket => "listen-vpnkit"
  | .qemuSocket => "listen-qemu"
  | .bessSocket => "listen-bess"
  | .stdioSocket => "listen-stdio"
  | .vfkitSocket => "listen-vfkit"
  | .forwardSocket => "forward-sock"
  | .forwardDest => "forward-dest"
  | .forwardUser => "forward-user"
  | .forwardIdentify => "forward-identity"
  | .pidFile => "pid-file"

/-- Each variable is registered once, under its own name. -/
theorem mem_registrations (name : String) (i : Variable) :
    (name, i) ∈ registrations ↔ name = i.flag := by
  refine ⟨fun h => (by decide : ∀ p ∈ registrations, p.1 = p.2.flag) (name, i) h, ?_⟩
  intro h
  subst h
  cases i <;> decide

theorem spelled_flag (i : Variable) : Flag.Spelled i.flag := by
  cases i <;> decide

/-- `main` registers its flags without a panic. -/
theorem commandLine_eq :
    ∃ formal, commandLine = some (flagSet formal) ∧
      ∀ i : Variable, ∀ n, (flagSet formal).formal.lookup n = some i ↔ n = i.flag := by
  have hsome : (Flag.formalOf registrations).isSome := by decide +kernel
  obtain ⟨formal, hformal⟩ := Option.isSome_iff_exists.mp hsome
  refine ⟨formal, by rw [commandLine, hformal]; rfl, ?_⟩
  intro i n
  exact (Flag.lookup_formalOf hformal n i).trans (mem_registrations n i)

/-- A flag that takes one text, and any. -/
def TakesText (flag : String) : Prop :=
  ∃ i : Variable, i.flag = flag ∧ isBoolFlag i = false ∧ ∀ v text, ∃ w, set i v text = .ok w

theorem takesText_of_mem {flag : String}
    (h : flag ∈ "listen" :: "pid-file" :: (socketFlags ++ forwardFlags)) : TakesText flag := by
  simp only [socketFlags, forwardFlags, List.cons_append, List.nil_append, List.mem_cons,
    List.not_mem_nil, or_false] at h
  obtain rfl | rfl | rfl | rfl | rfl | rfl | rfl | rfl | rfl | rfl | rfl := h
  · exact ⟨.endpoints, rfl, rfl, fun _ _ => ⟨_, rfl⟩⟩
  · exact ⟨.pidFile, rfl, rfl, fun _ _ => ⟨_, rfl⟩⟩
  · exact ⟨.vpnkitSocket, rfl, rfl, fun _ _ => ⟨_, rfl⟩⟩
  · exact ⟨.qemuSocket, rfl, rfl, fun _ _ => ⟨_, rfl⟩⟩
  · exact ⟨.bessSocket, rfl, rfl, fun _ _ => ⟨_, rfl⟩⟩
  · exact ⟨.stdioSocket, rfl, rfl, fun _ _ => ⟨_, rfl⟩⟩
  · exact ⟨.vfkitSocket, rfl, rfl, fun _ _ => ⟨_, rfl⟩⟩
  · exact ⟨.forwardSocket, rfl, rfl, fun _ _ => ⟨_, rfl⟩⟩
  · exact ⟨.forwardDest, rfl, rfl, fun _ _ => ⟨_, rfl⟩⟩
  · exact ⟨.forwardUser, rfl, rfl, fun _ _ => ⟨_, rfl⟩⟩
  · exact ⟨.forwardIdentify, rfl, rfl, fun _ _ => ⟨_, rfl⟩⟩

/-! ## The command line is read -/

theorem foldl_concat (texts l : List String) :
    texts.foldl (fun l text => l ++ [text]) l = l ++ texts := by
  induction texts generalizing l with
  | nil => simp
  | cons text texts ih => simp [ih]

theorem foldl_last (o : Option String) :
    (o.toList.filter (· ≠ "")).foldl (fun _ text => text) "" = o.getD "" := by
  cases o with
  | none => rfl
  | some text => by_cases h : text = "" <;> simp [h]

section
variable {formal : GoMap String Variable}
  (hformal : ∀ i : Variable, ∀ n, (flagSet formal).formal.lookup n = some i ↔ n = i.flag)
  {c : GvproxyCommand} {socketOrder forwardOrder : List String}
  (hsockets : GoMap.RangeOrder c.sockets socketOrder)
  (hforward : GoMap.RangeOrder c.forwardInfo forwardOrder)

include hformal

theorem takes_of_set (i : Variable) (text : Option String)
    (hbool : isBoolFlag i = text.isNone)
    (hset : ∀ v, ∃ w, set i v (text.getD "true") = .ok w) :
    Flag.Takes (flagSet formal) { name := i.flag, text := text } i :=
  { spelled := spelled_flag i
    lookup := (hformal i _).mpr rfl
    isBoolFlag := hbool
    set := hset }

theorem textSettings_taken {flag : String} (h : TakesText flag) {texts : List String} :
    ∀ a ∈ Flag.textSettings flag texts, ∃ i, Flag.Takes (flagSet formal) a i := by
  obtain ⟨i, rfl, hbool, hset⟩ := h
  intro a ha
  obtain ⟨text, _, rfl⟩ := List.mem_map.mp ha
  exact ⟨i, takes_of_set hformal i (some text) hbool (fun v => hset v text)⟩

/-- Every setting of a command is one that `main` takes. -/
theorem settings_taken (hwf : c.Wf) :
    ∀ a ∈ c.settings socketOrder forwardOrder, ∃ i, Flag.Takes (flagSet formal) a i := by
  have htext : ∀ flag ∈ "listen" :: "pid-file" :: (socketFlags ++ forwardFlags),
      ∀ (texts : List String), ∀ a ∈ Flag.textSettings flag texts,
        ∃ i, Flag.Takes (flagSet formal) a i :=
    fun flag hflag texts => textSettings_taken hformal (takesText_of_mem hflag)
  intro a ha
  simp only [settings, List.mem_append, or_assoc] at ha
  obtain ha | ha | ha | ha | ha | ha | ha := ha
  · exact htext "listen" (by decide) _ a ha
  · obtain ⟨_, rfl⟩ : c.debug = true ∧ a = ⟨"debug", none⟩ := by
      split at ha <;> simp_all
    exact ⟨.debug, takes_of_set hformal .debug none rfl (fun _ => ⟨true, rfl⟩)⟩
  · obtain rfl := List.mem_singleton.mp ha
    exact ⟨.mtu, takes_of_set hformal .mtu (some _) rfl
      (fun _ => ⟨c.mtu, Flag.intSet_itoa c.mtu⟩)⟩
  · obtain rfl := List.mem_singleton.mp ha
    exact ⟨.sshPort, takes_of_set hformal .sshPort (some _) rfl
      (fun _ => ⟨c.sshPort, Flag.intSet_itoa c.sshPort⟩)⟩
  · obtain ⟨flag, _, ha⟩ := List.mem_flatMap.mp ha
    by_cases hflag : flag ∈ socketFlags
    · exact htext flag (by simp [hflag]) _ a ha
    · simp [hwf.sockets flag hflag, Flag.textSettings] at ha
  · obtain ⟨flag, _, ha⟩ := List.mem_flatMap.mp ha
    by_cases hflag : flag ∈ forwardFlags
    · exact htext flag (by simp [hflag]) _ a ha
    · simp [hwf.forwardInfo flag hflag, Flag.textSettings] at ha
  · exact htext "pid-file" (by decide) _ a ha

include hsockets hforward

/-- What a variable is set to, part by part of the command line. -/
theorem textsOf_settings (i : Variable) :
    Flag.textsOf (flagSet formal) i (c.settings socketOrder forwardOrder) =
      (if "listen" = i.flag then c.endpoints.filter (· ≠ "") else []) ++
        (if c.debug = true ∧ "debug" = i.flag then ["true"] else []) ++
        (if "mtu" = i.flag then [itoa c.mtu.toInt] else []) ++
        (if "ssh-port" = i.flag then [itoa c.sshPort.toInt] else []) ++
        (c.sockets.lookup i.flag).toList.filter (· ≠ "") ++
        ((c.forwardInfo.lookup i.flag).getD []).filter (· ≠ "") ++
        (if "pid-file" = i.flag then [c.pidFile].filter (· ≠ "") else []) := by
  have hname := hformal i
  have hmissed : ∀ {ν : Type} {m : GoMap String ν} {order : List String},
      GoMap.RangeOrder m order → i.flag ∉ order → m.lookup i.flag = none := by
    intro ν m order horder hi
    rw [AList.lookup_eq_none, AList.mem_keys]
    exact fun h => hi (horder.mem_iff.mpr h)
  have hloop := Flag.textsOf_range hname (fun flag => (c.sockets.lookup flag).toList)
    (hsockets.nodup_iff.mpr c.sockets.nodupKeys) (fun h => by simp [hmissed hsockets h])
  have hloop' := Flag.textsOf_range hname (fun flag => (c.forwardInfo.lookup flag).getD [])
    (hforward.nodup_iff.mpr c.forwardInfo.nodupKeys) (fun h => by simp [hmissed hforward h])
  have hdebug : Flag.textsOf (flagSet formal) i (if c.debug then [⟨"debug", none⟩] else []) =
      if c.debug = true ∧ "debug" = i.flag then ["true"] else [] := by
    cases c.debug with
    | false => rfl
    | true => simp [Flag.textsOf_singleton hname, Flag.Setting.value]
  simp only [settings, Flag.textsOf_append, Flag.textsOf_textSettings hname,
    Flag.textsOf_singleton hname, hloop, hloop', hdebug, Flag.Setting.value, Option.getD_some]

/-- A variable whose flag is a key of one of the maps gets what the maps have. -/
theorem textsOf_key {i : Variable}
    (hi : i.flag ∉ ["listen", "debug", "mtu", "ssh-port", "pid-file"]) :
    Flag.textsOf (flagSet formal) i (c.settings socketOrder forwardOrder) =
      (c.sockets.lookup i.flag).toList.filter (· ≠ "") ++
        ((c.forwardInfo.lookup i.flag).getD []).filter (· ≠ "") := by
  simp only [List.mem_cons, List.not_mem_nil, or_false, not_or] at hi
  obtain ⟨hlisten, hdebug, hmtu, hssh, hpid⟩ := hi
  rw [textsOf_settings hformal hsockets hforward, if_neg (Ne.symm hlisten),
    if_neg (fun h => hdebug h.2.symm), if_neg (Ne.symm hmtu), if_neg (Ne.symm hssh),
    if_neg (Ne.symm hpid)]
  simp

/-- A socket's variable gets the socket of its flag. -/
theorem textsOf_socket (hwf : c.Wf) {i : Variable} (hi : i.flag ∈ socketFlags) :
    Flag.textsOf (flagSet formal) i (c.settings socketOrder forwardOrder) =
      (c.sockets.lookup i.flag).toList.filter (· ≠ "") := by
  obtain ⟨hkey, hnot⟩ := (by decide : ∀ x ∈ socketFlags,
    x ∉ ["listen", "debug", "mtu", "ssh-port", "pid-file"] ∧ x ∉ forwardFlags) i.flag hi
  rw [textsOf_key hformal hsockets hforward hkey, hwf.forwardInfo _ hnot]
  simp

/-- The variable of a forward gets the texts of its flag. -/
theorem textsOf_forward (hwf : c.Wf) {i : Variable} (hi : i.flag ∈ forwardFlags) :
    Flag.textsOf (flagSet formal) i (c.settings socketOrder forwardOrder) =
      ((c.forwardInfo.lookup i.flag).getD []).filter (· ≠ "") := by
  obtain ⟨hkey, hnot⟩ := (by decide : ∀ x ∈ forwardFlags,
    x ∉ ["listen", "debug", "mtu", "ssh-port", "pid-file"] ∧ x ∉ socketFlags) i.flag hi
  rw [textsOf_key hformal hsockets hforward hkey, hwf.sockets _ hnot]
  simp

/-- The other variables get what their own part of the command line says. -/
theorem textsOf_other (hwf : c.Wf) {i : Variable} (hi : i.flag ∉ socketFlags)
    (hi' : i.flag ∉ forwardFlags) :
    Flag.textsOf (flagSet formal) i (c.settings socketOrder forwardOrder) =
      (if "listen" = i.flag then c.endpoints.filter (· ≠ "") else []) ++
        (if c.debug = true ∧ "debug" = i.flag then ["true"] else []) ++
        (if "mtu" = i.flag then [itoa c.mtu.toInt] else []) ++
        (if "ssh-port" = i.flag then [itoa c.sshPort.toInt] else []) ++
        (if "pid-file" = i.flag then [c.pidFile].filter (· ≠ "") else []) := by
  rw [textsOf_settings hformal hsockets hforward, hwf.sockets _ hi, hwf.forwardInfo _ hi']
  simp

/-- What `main` reads of a command, in any order of its maps. -/
theorem globals_settings (hwf : c.Wf) :
    globals (Flag.putAll (flagSet formal) ⟨defaults, []⟩ (c.settings socketOrder forwardOrder)) =
      { showVersion := false
        endpoints := c.endpoints.filter (· ≠ "")
        debug := c.debug
        mtu := c.mtu
        sshPort := c.sshPort
        vpnkitSocket := (c.sockets.lookup "listen-vpnkit").getD ""
        qemuSocket := (c.sockets.lookup "listen-qemu").getD ""
        bessSocket := (c.sockets.lookup "listen-bess").getD ""
        stdioSocket := (c.sockets.lookup "listen-stdio").getD ""
        vfkitSocket := (c.sockets.lookup "listen-vfkit").getD ""
        forwardSocket := ((c.forwardInfo.lookup "forward-sock").getD []).filter (· ≠ "")
        forwardDest := ((c.forwardInfo.lookup "forward-dest").getD []).filter (· ≠ "")
        forwardUser := ((c.forwardInfo.lookup "forward-user").getD []).filter (· ≠ "")
        forwardIdentify := ((c.forwardInfo.lookup "forward-identity").getD []).filter (· ≠ "")
        pidFile := c.pidFile } := by
  have hother := fun i hi hi' => textsOf_other hformal hsockets hforward hwf (i := i) hi hi'
  have hsocket := fun i hi => textsOf_socket hformal hsockets hforward hwf (i := i) hi
  have hinfo := fun i hi => textsOf_forward hformal hsockets hforward hwf (i := i) hi
  have hendpoints : Flag.textsOf (flagSet formal) .endpoints (c.settings socketOrder forwardOrder) =
      c.endpoints.filter (· ≠ "") := by
    rw [hother .endpoints (by decide) (by decide)]
    simp [Variable.flag]
  have hpidFile : Flag.textsOf (flagSet formal) .pidFile (c.settings socketOrder forwardOrder) =
      (some c.pidFile).toList.filter (· ≠ "") := by
    rw [hother .pidFile (by decide) (by decide)]
    simp [Variable.flag]
  simp only [globals, Flag.values_putAll, Globals.mk.injEq]
  refine ⟨?_, ?_, ?_, ?_, ?_, ?_, ?_, ?_, ?_, ?_, ?_, ?_, ?_, ?_, ?_⟩
  · rw [hother .showVersion (by decide) (by decide)]
    simp [Variable.flag, defaults]
  · rw [hendpoints]
    exact foldl_concat _ []
  · rw [hother .debug (by decide) (by decide)]
    cases c.debug <;> rfl
  · rw [hother .mtu (by decide) (by decide)]
    simp [Variable.flag, Flag.FlagSet.setTo, flagSet, set, Flag.intSet_itoa]
  · rw [hother .sshPort (by decide) (by decide)]
    simp [Variable.flag, Flag.FlagSet.setTo, flagSet, set, Flag.intSet_itoa]
  · rw [hsocket .vpnkitSocket (by decide)]
    exact foldl_last _
  · rw [hsocket .qemuSocket (by decide)]
    exact foldl_last _
  · rw [hsocket .bessSocket (by decide)]
    exact foldl_last _
  · rw [hsocket .stdioSocket (by decide)]
    exact foldl_last _
  · rw [hsocket .vfkitSocket (by decide)]
    exact foldl_last _
  · rw [hinfo .forwardSocket (by decide)]
    exact foldl_concat _ []
  · rw [hinfo .forwardDest (by decide)]
    exact foldl_concat _ []
  · rw [hinfo .forwardUser (by decide)]
    exact foldl_concat _ []
  · rw [hinfo .forwardIdentify (by decide)]
    exact foldl_concat _ []
  · rw [hpidFile]
    exact foldl_last (some c.pidFile)

end

/-- **The command line is a faithful encoding.** Whatever a caller has done to a
command, in whatever order the maps are visited, `main` reads all the arguments
and finds in its variables what the caller gave. -/
theorem flagParse_toCmdline {start : GvproxyCommand}
    (hstart : start = newGvproxyCommand ∨ start = zero) (calls : List Call)
    (socketOrder forwardOrder : List String)
    (hsockets : GoMap.RangeOrder (built start calls).sockets socketOrder)
    (hforward : GoMap.RangeOrder (built start calls).forwardInfo forwardOrder) :
    ∃ s, flagParse ((built start calls).toCmdline socketOrder forwardOrder) = some (.ok (s, [])) ∧
      globals s =
        { showVersion := false
          endpoints := (givenTo "listen" calls).filter (· ≠ "")
          debug := (built start calls).debug
          mtu := (built start calls).mtu
          sshPort := (built start calls).sshPort
          vpnkitSocket := lastGivenTo "listen-vpnkit" calls
          qemuSocket := lastGivenTo "listen-qemu" calls
          bessSocket := lastGivenTo "listen-bess" calls
          stdioSocket := lastGivenTo "listen-stdio" calls
          vfkitSocket := lastGivenTo "listen-vfkit" calls
          forwardSocket := (givenTo "forward-sock" calls).filter (· ≠ "")
          forwardDest := (givenTo "forward-dest" calls).filter (· ≠ "")
          forwardUser := (givenTo "forward-user" calls).filter (· ≠ "")
          forwardIdentify := (givenTo "forward-identity" calls).filter (· ≠ "")
          pidFile := (built start calls).pidFile } ∧
      ∀ flag ∈ socketFlags, flag ∈ s.actual ↔ lastGivenTo flag calls ≠ "" := by
  obtain ⟨formal, hline, hformal⟩ := commandLine_eq
  have hempty : start.endpoints = [] ∧ start.sockets = ∅ ∧ start.forwardInfo = ∅ := by
    obtain rfl | rfl := hstart <;> exact ⟨rfl, rfl, rfl⟩
  have hwf : (built start calls).Wf := by
    refine Wf.built ⟨?_, ?_⟩ calls
    · simp [hempty.2.1]
    · simp [hempty.2.2]
  have hsocket : ∀ flag ∈ socketFlags,
      (built start calls).sockets.lookup flag = (givenTo flag calls).getLast? := by
    intro flag hflag
    simp [sockets_built start calls hflag, hempty.2.1]
  have hinfo : ∀ flag ∈ forwardFlags,
      ((built start calls).forwardInfo.lookup flag).getD [] = givenTo flag calls := by
    intro flag hflag
    simp [forwardInfo_built start calls hflag, hempty.2.2]
  have htaken : ∀ a ∈ (built start calls).settings socketOrder forwardOrder,
      ∃ i, Flag.Takes (flagSet formal) a i := settings_taken hformal hwf
  refine ⟨Flag.putAll (flagSet formal) ⟨defaults, []⟩
    ((built start calls).settings socketOrder forwardOrder), ?_, ?_, ?_⟩
  · rw [toCmdline_eq, flagParse, hline, Option.map_some]
    exact congrArg some (Flag.parse_cmdline htaken ⟨defaults, []⟩)
  · rw [globals_settings hformal hsockets hforward hwf, hsocket _ (by decide),
      hsocket _ (by decide), hsocket _ (by decide), hsocket _ (by decide), hsocket _ (by decide),
      hinfo _ (by decide), hinfo _ (by decide), hinfo _ (by decide), hinfo _ (by decide),
      endpoints_built, hempty.1]
    rfl
  · intro flag hflag
    obtain ⟨i, rfl⟩ : ∃ i : Variable, i.flag = flag := by
      have htext : TakesText flag := takesText_of_mem (by simp [hflag])
      obtain ⟨i, hi, _⟩ := htext
      exact ⟨i, hi⟩
    rw [Flag.mem_actual_putAll htaken, ← Flag.textsOf_ne_nil (hformal i),
      textsOf_socket hformal hsockets hforward hwf hflag, hsocket _ hflag, lastGivenTo]
    cases (givenTo i.flag calls).getLast? <;> simp

/-- Texts that look like flags, a flag given twice and a socket taken back. -/
def sampleCalls : List Call :=
  [.addEndpoint "unix:///tmp/network.sock", .debug true, .addQemuSocket "tcp://0.0.0.0:1234",
    .addBessSocket "unixpacket:///tmp/bess.sock", .addBessSocket "", .addForwardUser "-debug",
    .addForwardUser "", .addForwardUser "demouser", .pidFile "-listen"]

theorem flagParse_sampleCalls :
    ∃ s, flagParse ((built newGvproxyCommand sampleCalls).toCmdline ["listen-qemu", "listen-bess"]
        ["forward-user"]) = some (.ok (s, [])) ∧
      (globals s).qemuSocket = "tcp://0.0.0.0:1234" ∧ (globals s).bessSocket = "" ∧
      (globals s).forwardUser = ["-debug", "demouser"] ∧ (globals s).pidFile = "-listen" ∧
      "listen-bess" ∉ s.actual := by
  obtain ⟨s, hparse, hglobals, hactual⟩ :=
    flagParse_toCmdline (.inl rfl) sampleCalls ["listen-qemu", "listen-bess"] ["forward-user"]
      (by decide) (by decide)
  refine ⟨s, hparse, ?_, ?_, ?_, ?_, ?_⟩
  · rw [hglobals]
    decide
  · rw [hglobals]
    decide
  · rw [hglobals]
    decide
  · rw [hglobals]
    decide
  · rw [hactual "listen-bess" (by decide)]
    decide

end GvisorTapVsock.Cmd.Gvproxy
