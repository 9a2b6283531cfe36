import Mathlib
import Proxora.ClientCoherence
import Proxora.Ecma.Lines
import Proxora.IniSections

/-!
# The configuration of the WireGuard client

`lib/wireguard-conf.ts` with the parts of `lib/wireguard-keys.ts` that it uses: the text
of `wg0.conf` as `buildWg0Conf` writes it, and `parseIniSections`, which reads it.

The writer puts free text on the lines of its directives. `conf_decodes_iff` says for which
values the text is read back as what it was written from.
-/

namespace Proxora

open Ecma

/-! ## Keys and addresses -/

/-- The characters of base64 and base64url; `Buffer.from` passes over all others. -/
def isBase64Char (c : Char) : Bool := c.isAlphanum || c = '+' || c = '/' || c = '-' || c = '_'

/-- `Buffer.from(value, "base64").length`. -/
def base64Length (value : Text) : Nat := (value.filter isBase64Char).length * 3 / 4

def isWireguardKey (value : Text) : Bool := base64Length (trim value) = 32

def interfaceIpv4 (cidr : Text) : Option Text :=
  if isInterfaceIpv4 cidr then some (addressHost cidr) else none

def peerAllowedIps (address fallback : Text) : Text :=
  let listed := trim fallback
  if listed ≠ [] then listed
  else
    match interfaceIpv4 (if includes address "/" then address else address ++ ("/32" : Text)) with
    | some ip => ip ++ ("/32" : Text)
    | none => []

/-- `Number.parseInt(s, 10)`; `none` is `NaN`. -/
def parseInt (s : Text) : Option Int :=
  let rest := s.dropWhile isSpace
  let signed := rest.head? = some '-' || rest.head? = some '+'
  let digits := (if signed then rest.tail else rest).takeWhile Char.isDigit
  if digits = [] then none
  else some (if rest.head? = some '-' then -digitsValue digits else digitsValue digits)

def ipv4ToInt (ip : Text) : Option Nat :=
  let octet (word : Text) : Option Nat :=
    (parseInt word).bind fun n => if 0 ≤ n && n ≤ 255 then some n.toNat else none
  match (split '.' ip).map octet with
  | [some a, some b, some c, some d] => some (((a * 256 + b) * 256 + c) * 256 + d)
  | _ => none

def cidrContainsIpv4 (cidr ip : Text) : Bool :=
  let trimmed := trim cidr
  if trimmed = [] then false
  else
    let net := trim (trimmed.takeWhile (· ≠ '/'))
    let bits := if '/' ∈ trimmed then parseInt (trimmed.dropWhile (· ≠ '/')).tail else some 32
    match ipv4ToInt net, ipv4ToInt (trim ip), bits with
    | some net, some ip, some bits =>
        if bits < 0 || 32 < bits then false
        else if bits = 0 then true
        else net >>> (32 - bits.toNat) = ip >>> (32 - bits.toNat)
    | _, _, _ => false

/-- `list.split(",").map((s) => s.trim()).filter(Boolean)`. -/
def listedCidrs (list : Text) : List Text := ((split ',' list).map trim).filter (· ≠ [])

def ensureIpInAllowedIps (allowedIPs ip : Text) : Text :=
  let host := addressHost ip
  if !isInterfaceIpv4 host then trim allowedIPs
  else
    let parts := listedCidrs allowedIPs
    if parts.any fun cidr => cidrContainsIpv4 cidr host then List.intercalate (", " : Text) parts
    else List.intercalate (", " : Text) (parts ++ [host ++ ("/32" : Text)])

/-! ## Writing -/

structure WgConfPeer where
  publicKey : Text
  endpoint : Option Text
  allowedIPs : Text
  persistentKeepalive : Option Int
  presharedKey : Option Text
deriving DecidableEq, Repr

/-- The argument of `buildWg0Conf`. -/
structure WgConf where
  privateKey : Text
  address : Text
  peers : List WgConfPeer
  mtu : Option Nat
deriving DecidableEq, Repr

def wgClientMtu : Nat := 1280

/-- The MTU that is written. -/
def WgConf.mtuValue (input : WgConf) : Nat :=
  match input.mtu with
  | some mtu => if 1280 ≤ mtu && mtu ≤ 1420 then mtu else wgClientMtu
  | none => wgClientMtu

def numeral (n : Nat) : Text := (toString n : String)

/-- A directive that is written when there is a value. -/
def whenGiven (name : Text) (value : Option Text) : List (Text × Text) :=
  value.toList.map fun value => (name, value)

namespace WgConfPeer

/-- The preshared key, when it is one. -/
def usablePsk (peer : WgConfPeer) : Option Text :=
  peer.presharedKey.filter fun psk => psk ≠ [] && isWireguardKey psk

/-- `peer.endpoint?.trim()`, where it is not empty. -/
def usableEndpoint (peer : WgConfPeer) : Option Text :=
  (peer.endpoint.map trim).filter (· ≠ [])

/-- `peer.persistentKeepalive ?? 25`, where it is positive. -/
def usableKeepalive (peer : WgConfPeer) : Option Nat :=
  let ka := peer.persistentKeepalive.getD 25
  if 0 < ka then some ka.toNat else none

/-- The directives of a peer, in the order in which they are written. -/
def directives (peer : WgConfPeer) : List (Text × Text) :=
  [(("PublicKey" : Text), trim peer.publicKey)] ++
    whenGiven "PresharedKey" (peer.usablePsk.map trim) ++
    whenGiven "Endpoint" peer.usableEndpoint ++
    [(("AllowedIPs" : Text), trim peer.allowedIPs)] ++
    whenGiven "PersistentKeepalive" (peer.usableKeepalive.map numeral)

end WgConfPeer

/-- `${name} = ${value}`. -/
def directiveLine (directive : Text × Text) : Text :=
  directive.1 ++ ((" = " : Text) ++ directive.2)

/-- The lines of a section, with the empty line after it. -/
def stanza (heading : Text) (directives : List (Text × Text)) : List Text :=
  heading :: directives.map directiveLine ++ [[]]

def WgConf.directives (input : WgConf) : List (Text × Text) :=
  [("PrivateKey", input.privateKey), ("Address", input.address),
    ("MTU", numeral input.mtuValue)]

/-- The loop over the peers: those that it writes, given the keys that it has seen. -/
def writtenPeers (seen : List Text) : List WgConfPeer → List WgConfPeer
  | [] => []
  | peer :: peers =>
      let key := trim peer.publicKey
      if !isWireguardKey key || key ∈ seen then writtenPeers seen peers
      else if trim peer.allowedIPs = [] then writtenPeers seen peers
      else peer :: writtenPeers (key :: seen) peers

/-- `lines`. -/
def WgConf.lines (input : WgConf) : List Text :=
  stanza "[Interface]" input.directives ++
    (writtenPeers [] input.peers).flatMap fun peer => stanza "[Peer]" peer.directives

def buildWg0Conf (input : WgConf) : Text := trim (join '\n' input.lines) ++ ['\n']

/-! ## Reading -/

abbrev ConfEntry : Type := Ini.Entry Text Text
abbrev ConfSection : Type := Ini.Section Text Text

/-- The first group of `/^\[([^\]]+)]\s*$/`. -/
def headingName : Text → Option Text
  | '[' :: rest =>
      let name := rest.takeWhile (· ≠ ']')
      match rest.dropWhile (· ≠ ']') with
      | _ :: after => if name ≠ [] && after.all isSpace then some name else none
      | [] => none
  | _ => none

/-- A key before the first equals sign, and the value after it. -/
def keyAndValue (trimmed : Text) : Option ConfEntry :=
  match trimmed.takeWhile (· ≠ '='), trimmed.dropWhile (· ≠ '=') with
  | _, [] => none
  | [], _ :: _ => none
  | key, _ :: value => some (.directive (toLowerCase (trim key)) (trim value))

/-- What a line says. -/
def iniLine (line : Text) : Option ConfEntry :=
  let trimmed := trim line
  if trimmed = [] || trimmed.head? = some '#' || trimmed.head? = some ';' then none
  else
    match headingName trimmed with
    | some name => some (.heading (toLowerCase (trim name)))
    | none => keyAndValue trimmed

def parseIniSections (raw : Text) : List ConfSection :=
  Ini.assemble (readLines iniLine (crlfToLf (withoutBom raw)))

/-! ## What was configured -/

/-- The peers that are configured: those with a key, every key once. -/
def configuredPeers (seen : List Text) : List WgConfPeer → List WgConfPeer
  | [] => []
  | peer :: peers =>
      let key := trim peer.publicKey
      if !isWireguardKey key || key ∈ seen then configuredPeers seen peers
      else peer :: configuredPeers (key :: seen) peers

def WgConf.interfaceSection (input : WgConf) : ConfSection where
  name := "interface"
  fields := [("privatekey", [trim input.privateKey]), ("address", [trim input.address]),
    ("mtu", [numeral input.mtuValue])]

def WgConfPeer.peerSection (peer : WgConfPeer) : ConfSection where
  name := "peer"
  fields :=
    ([(("publickey" : Text), trim peer.publicKey)] ++
      whenGiven "presharedkey" (peer.usablePsk.map trim) ++
      whenGiven "endpoint" peer.usableEndpoint ++
      [(("allowedips" : Text), trim peer.allowedIPs)] ++
      whenGiven "persistentkeepalive" (peer.usableKeepalive.map numeral)).map
        fun field => (field.1, [field.2])

/-- The sections that say no more and no less than the configuration. -/
def WgConf.sections (input : WgConf) : List ConfSection :=
  input.interfaceSection :: (configuredPeers [] input.peers).map WgConfPeer.peerSection

/-- The texts of the peer stay on one line. -/
def WgConfPeer.OneLine (peer : WgConfPeer) : Prop :=
  ∀ directive ∈ peer.directives, '\n' ∉ directive.2

instance (peer : WgConfPeer) : Decidable peer.OneLine :=
  inferInstanceAs (Decidable (∀ directive ∈ peer.directives, '\n' ∉ directive.2))

/-- The values of the interface stay on one line, and so do those of every configured
peer, which names allowed IPs. -/
def WgConf.Safe (input : WgConf) : Prop :=
  ('\n' ∉ trimRight input.privateKey ∧ '\n' ∉ trimRight input.address) ∧
    ∀ peer ∈ configuredPeers [] input.peers, trim peer.allowedIPs ≠ [] ∧ peer.OneLine

instance (input : WgConf) : Decidable input.Safe :=
  inferInstanceAs (Decidable ((_ ∧ _) ∧ ∀ peer ∈ configuredPeers [] input.peers, _))

/-! ## Lines -/

theorem iniLine_trim (line : Text) : iniLine (trim line) = iniLine line := by
  unfold iniLine
  rw [trim_trim]

theorem iniLine_nil : iniLine [] = none := by decide

theorem trim_of_isAlpha {s : Text} (letters : s.all Char.isAlpha = true) : trim s = s :=
  trim_of_notSpace fun c member => isSpace_of_isAlpha (List.all_eq_true.mp letters c member)

/-- A line that names its directive by letters is read as this directive. -/
theorem iniLine_directiveLine {name value : Text} (letters : name.all Char.isAlpha = true)
    (some : name ≠ []) :
    iniLine (directiveLine (name, value)) = Option.some
      (.directive (toLowerCase name) (trim value)) := by
  obtain ⟨c, rest, rfl⟩ := List.exists_cons_of_ne_nil some
  have letter : c.isAlpha = true := by
    rw [List.all_cons, Bool.and_eq_true] at letters
    exact letters.1
  have form : directiveLine (c :: rest, value) =
      (c :: rest ++ [' ']) ++ '=' :: (' ' :: value) := by
    rw [directiveLine, List.append_assoc]
    rfl
  have trimmed : trim (directiveLine (c :: rest, value)) =
      (c :: rest ++ [' ']) ++ '=' :: trimRight (' ' :: value) := by
    rw [← trimRight_append_mark _ (by decide), ← form]
    exact trim_of_head (isSpace_of_isAlpha letter) _
  have plain : ∀ d ∈ c :: rest ++ [' '], decide (d ≠ '=') = true := by
    intro d member
    rw [decide_eq_true_eq]
    rintro rfl
    rcases List.mem_append.mp member with member | member
    · exact absurd (List.all_eq_true.mp letters _ member) (by decide)
    · exact absurd (List.mem_singleton.mp member) (by decide)
  have other {d : Char} (sign : d.isAlpha = false) : c ≠ d := by
    rintro rfl
    rw [letter] at sign
    cases sign
  have name_trim : trim (c :: rest ++ [' ']) = c :: rest := by
    rw [trim_append_space _ (by decide), trim_of_isAlpha letters]
  have no_heading : headingName ((c :: rest ++ [' ']) ++ '=' :: trimRight (' ' :: value)) =
      none := by
    unfold headingName
    split
    · next same => exact absurd (List.cons.inj same).1 (other (by decide))
    · rfl
  have read : keyAndValue ((c :: rest ++ [' ']) ++ '=' :: trimRight (' ' :: value)) =
      Option.some (.directive (toLowerCase (c :: rest)) (trim value)) := by
    rw [keyAndValue, List.takeWhile_append_of_pos plain, List.dropWhile_append_of_pos plain,
      List.takeWhile_cons_of_neg (by decide), List.dropWhile_cons_of_neg (by decide),
      List.append_nil]
    show Option.some (Ini.Entry.directive (toLowerCase (trim (c :: rest ++ [' '])))
      (trim (trimRight (' ' :: value)))) = _
    rw [name_trim, trim_trimRight, trim_cons_space (by decide)]
  unfold iniLine
  simp only [trimmed, no_heading, read]
  rw [if_neg]
  simp [other (show ('#' : Char).isAlpha = false from by decide),
    other (show (';' : Char).isAlpha = false from by decide)]

/-- The names that are written. -/
def isName (name : Text) : Bool := name ≠ [] && name.all Char.isAlpha

theorem newline_notMem_name {name : Text} (named : isName name = true) :
    '\n' ∉ name ++ (" = " : Text) := by
  rw [isName, Bool.and_eq_true] at named
  intro member
  rcases List.mem_append.mp member with member | member
  · exact absurd (List.all_eq_true.mp named.2 _ member) (by decide)
  · exact absurd member (by decide)

theorem iniLine_of_isName {name : Text} (named : isName name = true) (value : Text) :
    iniLine (directiveLine (name, value)) =
      some (.directive (toLowerCase name) (trim value)) := by
  rw [isName, Bool.and_eq_true, decide_eq_true_eq] at named
  exact iniLine_directiveLine named.2 named.1

/-- A directive whose value stays on its line is read back. -/
theorem readLines_directiveLine {directive : Text × Text} (named : isName directive.1 = true)
    (line : '\n' ∉ trimRight directive.2) :
    readLines iniLine (directiveLine directive) =
      [.directive (toLowerCase directive.1) (trim directive.2)] := by
  obtain ⟨name, value⟩ := directive
  obtain ⟨spaces, form, blank⟩ := trimRight_append value
  have whole : directiveLine (name, value) =
      directiveLine (name, trimRight value) ++ spaces := by
    simp only [directiveLine, List.append_assoc]
    rw [← form]
  have free : '\n' ∉ directiveLine (name, trimRight value) := by
    rw [directiveLine, ← List.append_assoc]
    intro member
    rcases List.mem_append.mp member with member | member
    · exact newline_notMem_name named member
    · exact line member
  rw [whole, ← readLines_trim iniLine_trim iniLine_nil, trim_append_spaces _ blank,
    readLines_trim iniLine_trim iniLine_nil, readLines_of_notMem iniLine free,
    iniLine_of_isName named, trim_trimRight]
  rfl

def firstLine (s : Text) : Text := s.takeWhile (· ≠ '\n')

/-- In any case the first line of the value is read. -/
theorem readLines_directiveLine_eq_cons {name : Text} (named : isName name = true)
    (value : Text) :
    ∃ more, readLines iniLine (directiveLine (name, value)) =
      .directive (toLowerCase name) (trim (firstLine value)) :: more := by
  obtain ⟨more, form⟩ := readLines_eq_append iniLine (directiveLine (name, value))
  have first : (directiveLine (name, value)).takeWhile (· ≠ '\n') =
      directiveLine (name, firstLine value) := by
    rw [directiveLine, ← List.append_assoc, List.takeWhile_append_of_pos, directiveLine,
      List.append_assoc, firstLine]
    intro c member
    rw [decide_eq_true_eq]
    rintro rfl
    exact newline_notMem_name named member
  rw [first, iniLine_of_isName named] at form
  exact ⟨more, form⟩

/-- A value whose first line says it all stays on its line. -/
theorem newline_notMem_trimRight {value : Text} (free : '\n' ∉ trim value)
    (kept : trim (firstLine value) = trim value) : '\n' ∉ trimRight value := by
  induction value with
  | nil => exact free
  | cons c value ih =>
      by_cases space : isSpace c = true
      · by_cases ends : c = '\n'
        · have nothing : trim value = [] := by
            rw [← trim_cons_space space value, ← kept, firstLine,
              List.takeWhile_cons_of_neg (by simp [ends])]
            rfl
          have blank : trimRight (c :: value) = [] := by
            rw [trimRight, List.rdropWhile_eq_nil_iff]
            intro d member
            rcases List.mem_cons.mp member with rfl | member
            · exact space
            · exact blank_of_trim_eq_nil nothing d member
          rw [blank]
          exact List.not_mem_nil
        · have split_first : firstLine (c :: value) = c :: firstLine value :=
            List.takeWhile_cons_of_pos (by simp [ends])
          rw [trim_cons_space space] at free
          rw [split_first, trim_cons_space space, trim_cons_space space] at kept
          intro member
          rcases mem_of_mem_trimRight_cons member with same | member
          · exact ends same.symm
          · exact ih free kept member
      · rw [Bool.not_eq_true] at space
        rwa [trim_of_head space] at free

/-! ## The entries of the text -/

/-- The entries of a section with these directives. -/
def entriesOf (directives : List (Text × Text)) : List ConfEntry :=
  directives.flatMap fun directive => readLines iniLine (directiveLine directive)

theorem readLines_heading_interface :
    readLines iniLine "[Interface]" = [.heading "interface"] := by decide

theorem readLines_heading_peer : readLines iniLine "[Peer]" = [.heading "peer"] := by decide

theorem flatMap_stanza {heading : Text} {name : Text} (directives : List (Text × Text))
    (read : readLines iniLine heading = [.heading name]) :
    (stanza heading directives).flatMap (readLines iniLine) =
      .heading name :: entriesOf directives := by
  have empty : readLines iniLine [] = [] := by decide
  rw [stanza, List.cons_append, List.flatMap_cons, read, List.flatMap_append,
    List.flatMap_singleton, empty, List.append_nil, List.flatMap_map]
  rfl

/-- Line ends and white space around the text do not matter. -/
theorem parseIniSections_eq (raw : Text) :
    parseIniSections raw = Ini.assemble (readLines iniLine raw) := by
  rw [parseIniSections, readLines_crlfToLf iniLine_trim, withoutBom]
  split_ifs with marked
  · cases raw with
    | nil => rfl
    | cons c raw =>
        rw [List.head?_cons, Option.some_inj] at marked
        subst marked
        rw [readLines_cons_space iniLine_trim iniLine_nil (by decide)]
        rfl
  · rfl

/-- The written text is read section by section. -/
theorem parse_buildWg0Conf (input : WgConf) :
    parseIniSections (buildWg0Conf input) =
      Ini.assemble (.heading ("interface" : Text) :: (entriesOf input.directives ++
        (writtenPeers [] input.peers).flatMap fun peer =>
          .heading ("peer" : Text) :: entriesOf peer.directives)) := by
  have some : input.lines ≠ [] := List.cons_ne_nil _ _
  rw [parseIniSections_eq, buildWg0Conf,
    readLines_append_space iniLine_trim iniLine_nil _ (by decide),
    readLines_trim iniLine_trim iniLine_nil, readLines_join iniLine some, WgConf.lines,
    List.flatMap_append, flatMap_stanza _ readLines_heading_interface, List.flatMap_assoc]
  simp only [flatMap_stanza _ readLines_heading_peer, List.cons_append]

/-- A section that gives every directive once. -/
def sectionOf (name : Text) (directives : List (Text × Text)) : ConfSection :=
  ⟨name, directives.map fun directive => (toLowerCase directive.1, [trim directive.2])⟩

theorem trim_numeral (n : Nat) : trim (numeral n) = numeral n :=
  trim_of_notSpace fun c member => isSpace_of_isDigit (digits_toString c member)

theorem newline_notMem_numeral (n : Nat) : '\n' ∉ numeral n := by
  intro member
  exact absurd (digits_toString _ member) (by decide)

theorem WgConf.interfaceSection_eq (input : WgConf) :
    input.interfaceSection = sectionOf "interface" input.directives := by
  have privateKey : toLowerCase "PrivateKey" = "privatekey" := by decide
  have address : toLowerCase "Address" = "address" := by decide
  have mtu : toLowerCase "MTU" = "mtu" := by decide
  unfold WgConf.interfaceSection sectionOf WgConf.directives
  rw [List.map_cons, List.map_cons, List.map_cons, List.map_nil]
  dsimp only
  rw [privateKey, address, mtu, trim_numeral]

theorem WgConfPeer.trim_of_mem {peer : WgConfPeer} {directive : Text × Text}
    (member : directive ∈ peer.directives) : trim directive.2 = directive.2 := by
  simp only [WgConfPeer.directives, whenGiven, List.mem_append, List.mem_map,
    List.mem_singleton, Option.mem_toList] at member
  rcases member with ((((rfl | ⟨psk, known, rfl⟩) | ⟨endpoint, known, rfl⟩) | rfl) |
    ⟨ka, known, rfl⟩)
  · exact trim_trim _
  · obtain ⟨key, _, rfl⟩ := Option.map_eq_some_iff.mp known
    exact trim_trim _
  · obtain ⟨some, _⟩ := Option.filter_eq_some_iff.mp known
    obtain ⟨given, _, rfl⟩ := Option.map_eq_some_iff.mp some
    exact trim_trim _
  · exact trim_trim _
  · obtain ⟨n, _, rfl⟩ := Option.map_eq_some_iff.mp known
    exact trim_numeral _

theorem WgConfPeer.peerSection_eq (peer : WgConfPeer) :
    peer.peerSection = sectionOf "peer" peer.directives := by
  have plain : sectionOf "peer" peer.directives = ⟨"peer", peer.directives.map fun directive =>
      (toLowerCase directive.1, [directive.2])⟩ := by
    rw [sectionOf, List.map_congr_left]
    intro directive member
    rw [trim_of_mem member]
  have publicKey : toLowerCase "PublicKey" = "publickey" := by decide
  have presharedKey : toLowerCase "PresharedKey" = "presharedkey" := by decide
  have endpoint : toLowerCase "Endpoint" = "endpoint" := by decide
  have allowedIPs : toLowerCase "AllowedIPs" = "allowedips" := by decide
  have keepalive : toLowerCase "PersistentKeepalive" = "persistentkeepalive" := by decide
  rw [plain, WgConfPeer.peerSection, WgConfPeer.directives]
  simp only [whenGiven, List.map_append, List.map_map, List.map_cons, List.map_nil,
    Function.comp_def, publicKey, presharedKey, endpoint, allowedIPs, keepalive]

theorem WgConf.isName_of_mem {input : WgConf} {directive : Text × Text}
    (member : directive ∈ input.directives) : isName directive.1 = true := by
  simp only [WgConf.directives, List.mem_cons, List.not_mem_nil, or_false] at member
  rcases member with rfl | rfl | rfl
  · exact show isName "PrivateKey" = true by decide
  · exact show isName "Address" = true by decide
  · exact show isName "MTU" = true by decide

theorem WgConfPeer.isName_of_mem {peer : WgConfPeer} {directive : Text × Text}
    (member : directive ∈ peer.directives) : isName directive.1 = true := by
  simp only [WgConfPeer.directives, whenGiven, List.mem_append, List.mem_map,
    List.mem_singleton] at member
  rcases member with ((((rfl | ⟨_, _, rfl⟩) | ⟨_, _, rfl⟩) | rfl) | ⟨_, _, rfl⟩)
  · exact show isName "PublicKey" = true by decide
  · exact show isName "PresharedKey" = true by decide
  · exact show isName "Endpoint" = true by decide
  · exact show isName "AllowedIPs" = true by decide
  · exact show isName "PersistentKeepalive" = true by decide

theorem entriesOf_of_line {directives : List (Text × Text)}
    (named : ∀ directive ∈ directives, isName directive.1 = true)
    (line : ∀ directive ∈ directives, '\n' ∉ trimRight directive.2) :
    entriesOf directives = directives.map fun directive =>
      .directive (toLowerCase directive.1) (trim directive.2) := by
  induction directives with
  | nil => rfl
  | cons directive directives ih =>
      rw [entriesOf, List.flatMap_cons, readLines_directiveLine (named _ List.mem_cons_self)
        (line _ List.mem_cons_self), ← entriesOf,
        ih (fun later member => named later (List.mem_cons_of_mem _ member))
          (fun later member => line later (List.mem_cons_of_mem _ member))]
      rfl

theorem print_sectionOf (name : Text) (directives : List (Text × Text)) :
    (sectionOf name directives).print = .heading name :: directives.map fun directive =>
      .directive (toLowerCase directive.1) (trim directive.2) := by
  rw [Ini.Section.print, sectionOf, List.flatMap_map]
  exact congrArg (List.cons _) List.map_eq_flatMap.symm

theorem readable_sectionOf {name : Text} {directives : List (Text × Text)}
    (distinct : (directives.map fun directive => toLowerCase directive.1).Nodup) :
    (sectionOf name directives).Readable := by
  constructor
  · rw [sectionOf, List.map_map]
    exact distinct
  · intro field member
    obtain ⟨directive, _, rfl⟩ := List.mem_map.mp member
    exact List.cons_ne_nil _ _

theorem WgConf.readable_interfaceSection (input : WgConf) : input.interfaceSection.Readable := by
  rw [input.interfaceSection_eq]
  apply readable_sectionOf
  have names : ((["PrivateKey", "Address", "MTU"] : List Text).map toLowerCase).Nodup := by
    decide
  exact names

theorem WgConfPeer.readable_peerSection (peer : WgConfPeer) : peer.peerSection.Readable := by
  rw [peer.peerSection_eq]
  apply readable_sectionOf
  have names : ((["PublicKey", "PresharedKey", "Endpoint", "AllowedIPs",
      "PersistentKeepalive"] : List Text).map toLowerCase).Nodup := by decide
  refine names.sublist ?_
  have fewer (name : Text) (value : Option Text) :
      ((whenGiven name value).map Prod.fst).Sublist [name] := by
    cases value with
    | none => exact List.nil_sublist _
    | some value => exact List.Sublist.refl _
  have kept : (peer.directives.map Prod.fst).Sublist (["PublicKey", "PresharedKey", "Endpoint",
      "AllowedIPs", "PersistentKeepalive"] : List Text) := by
    simp only [WgConfPeer.directives, List.map_append]
    exact ((((List.Sublist.refl _).append (fewer _ _)).append (fewer _ _)).append
      (List.Sublist.refl _)).append (fewer _ _)
  have mapped := kept.map toLowerCase
  rw [List.map_map] at mapped
  exact mapped

/-! ## The text of one-line values -/

theorem WgConf.line_of_safe {input : WgConf} (privateKey : '\n' ∉ trimRight input.privateKey)
    (address : '\n' ∉ trimRight input.address) :
    ∀ directive ∈ input.directives, '\n' ∉ trimRight directive.2 := by
  intro directive member
  simp only [WgConf.directives, List.mem_cons, List.not_mem_nil, or_false] at member
  rcases member with rfl | rfl | rfl
  · exact privateKey
  · exact address
  · exact fun within => newline_notMem_numeral _ (mem_of_mem_trimRight within)

/-- Values that stay on their lines are read back. -/
theorem parse_of_line {input : WgConf} (privateKey : '\n' ∉ trimRight input.privateKey)
    (address : '\n' ∉ trimRight input.address)
    (peers : ∀ peer ∈ writtenPeers [] input.peers, peer.OneLine) :
    parseIniSections (buildWg0Conf input) =
      input.interfaceSection :: (writtenPeers [] input.peers).map WgConfPeer.peerSection := by
  have interface_print : .heading ("interface" : Text) :: entriesOf input.directives =
      input.interfaceSection.print := by
    rw [input.interfaceSection_eq, print_sectionOf,
      entriesOf_of_line (fun _ => WgConf.isName_of_mem) (WgConf.line_of_safe privateKey address)]
  have peer_print {peer : WgConfPeer} (line : peer.OneLine) :
      .heading ("peer" : Text) :: entriesOf peer.directives = peer.peerSection.print := by
    rw [peer.peerSection_eq, print_sectionOf, entriesOf_of_line
      (fun _ => WgConfPeer.isName_of_mem) fun directive member within =>
        line directive member (mem_of_mem_trimRight within)]
  have peers_print : ((writtenPeers [] input.peers).flatMap fun peer =>
      .heading ("peer" : Text) :: entriesOf peer.directives) =
      ((writtenPeers [] input.peers).map WgConfPeer.peerSection).flatMap Ini.Section.print := by
    rw [List.flatMap_map]
    exact List.flatMap_congr fun peer member => peer_print (peers peer member)
  rw [parse_buildWg0Conf, peers_print, ← List.cons_append, interface_print,
    ← List.flatMap_cons]
  apply Ini.assemble_print
  intro given member
  rcases List.mem_cons.mp member with rfl | member
  · exact input.readable_interfaceSection
  · obtain ⟨peer, _, rfl⟩ := List.mem_map.mp member
    exact peer.readable_peerSection

/-- Peers that all name allowed IPs are all written. -/
theorem writtenPeers_eq {seen : List Text} {peers : List WgConfPeer}
    (named : ∀ peer ∈ configuredPeers seen peers, trim peer.allowedIPs ≠ []) :
    writtenPeers seen peers = configuredPeers seen peers := by
  induction peers generalizing seen with
  | nil => rfl
  | cons peer peers ih =>
      rw [configuredPeers] at named ⊢
      rw [writtenPeers]
      split_ifs at named ⊢ with skipped blank
      · exact ih named
      · exact absurd blank (named peer List.mem_cons_self)
      · rw [ih fun later member => named later (List.mem_cons_of_mem peer member)]

/-- The configured peers that name allowed IPs are written. -/
theorem configured_sublist_written {seen written : List Text} {peers : List WgConfPeer}
    (known : written ⊆ seen) :
    ((configuredPeers seen peers).filter fun peer => trim peer.allowedIPs ≠ []).Sublist
      (writtenPeers written peers) := by
  induction peers generalizing seen written with
  | nil => exact List.Sublist.refl []
  | cons peer peers ih =>
      rw [configuredPeers, writtenPeers]
      by_cases key : isWireguardKey (trim peer.publicKey) = true
      · rw [key, Bool.not_true, Bool.false_or, Bool.false_or]
        by_cases old : trim peer.publicKey ∈ seen
        · rw [if_pos (decide_eq_true old)]
          by_cases listed : trim peer.publicKey ∈ written
          · rw [if_pos (decide_eq_true listed)]
            exact ih known
          · rw [if_neg (by simpa using listed)]
            split_ifs
            · exact ih known
            · exact List.Sublist.cons _ (ih (List.cons_subset.mpr ⟨old, known⟩))
        · rw [if_neg (by simpa using old), if_neg (by simpa using fun listed => old (known listed))]
          by_cases blank : trim peer.allowedIPs = []
          · rw [if_pos blank, List.filter_cons_of_neg (by simp [blank])]
            exact ih (List.subset_cons_of_subset _ known)
          · rw [if_neg blank, List.filter_cons_of_pos (by simp [blank])]
            exact (ih (List.cons_subset_cons _ known)).cons_cons peer
      · rw [Bool.not_eq_true] at key
        rw [key, Bool.not_false, Bool.true_or, if_pos rfl, Bool.true_or, if_pos rfl]
        exact ih known

/-! ## The text of any values -/

/-- A value with a line break. -/
def isBroken (_ value : Text) : Bool := '\n' ∈ value

theorem mem_of_keyAndValue {trimmed key value : Text}
    (read : keyAndValue trimmed = some (.directive key value)) {c : Char} (member : c ∈ value) :
    c ∈ trimmed := by
  match named : trimmed.takeWhile (· ≠ '='), form : trimmed.dropWhile (· ≠ '=') with
  | _, [] =>
      rw [keyAndValue, form] at read
      cases read
  | [], _ :: _ =>
      rw [keyAndValue, named, form] at read
      cases read
  | d :: name, sign :: rest =>
      rw [keyAndValue, named, form] at read
      obtain ⟨-, rfl⟩ := Ini.Entry.directive.inj (Option.some.inj read)
      have whole : c ∈ trimmed.dropWhile (· ≠ '=') := by
        rw [form]
        exact List.mem_cons_of_mem _ (mem_of_mem_trim member)
      exact (List.dropWhile_suffix _).subset whole

theorem newline_notMem_of_mem_readLines {s key value : Text}
    (member : .directive key value ∈ readLines iniLine s) : '\n' ∉ value := by
  obtain ⟨line, free, read⟩ := line_of_mem_readLines iniLine member
  intro newline
  unfold iniLine at read
  dsimp only at read
  split_ifs at read
  split at read
  · simp at read
  · exact free (mem_of_mem_trim (mem_of_keyAndValue read newline))

/-- No value that is read has a line break. -/
theorem weight_isBroken (input : WgConf) :
    Ini.weight isBroken (parseIniSections (buildWg0Conf input)) = 0 := by
  rw [parse_buildWg0Conf, Ini.weight_assemble, List.countP_eq_zero]
  have read {entry : ConfEntry} {directives : List (Text × Text)}
      (member : entry ∈ entriesOf directives) : ¬ entry.isWanted isBroken = true := by
    obtain ⟨directive, _, here⟩ := List.mem_flatMap.mp member
    cases entry with
    | heading name => exact Bool.false_ne_true
    | directive key value => simpa [Ini.Entry.isWanted, isBroken] using
        newline_notMem_of_mem_readLines here
  intro entry member
  rcases List.mem_append.mp member with member | member
  · exact read member
  · obtain ⟨peer, _, within⟩ := List.mem_flatMap.mp member
    rcases List.mem_cons.mp within with rfl | within
    · exact Bool.false_ne_true
    · exact read within

/-- What is read as the configuration has no line breaks in it. -/
theorem newline_notMem_of_parse {input : WgConf}
    (decoded : parseIniSections (buildWg0Conf input) = input.sections) {given : ConfSection}
    (member : given ∈ input.sections) {field : Text × List Text} (within : field ∈ given.fields)
    {value : Text} (listed : value ∈ field.2) : '\n' ∉ value := by
  have none := weight_isBroken input
  rw [decoded] at none
  have unbroken := Ini.not_wanted_of_weight_eq_zero isBroken none member within listed
  simpa [isBroken] using unbroken

theorem WgConfPeer.oneLine_of_parse {input : WgConf}
    (decoded : parseIniSections (buildWg0Conf input) = input.sections) {peer : WgConfPeer}
    (member : peer ∈ configuredPeers [] input.peers) : peer.OneLine := by
  intro directive within
  have listed : peer.peerSection ∈ input.sections :=
    List.mem_cons_of_mem _ (List.mem_map_of_mem member)
  have field : (toLowerCase directive.1, [trim directive.2]) ∈ peer.peerSection.fields := by
    rw [peer.peerSection_eq]
    exact List.mem_map_of_mem within
  rw [← trim_of_mem within]
  exact newline_notMem_of_parse decoded listed field List.mem_cons_self

/-! ### The interface -/

/-- The first value that the interface section is given stays its first value. -/
theorem WgConf.first_of_parse {input : WgConf}
    (decoded : parseIniSections (buildWg0Conf input) = input.sections) {name value : Text}
    {front : List (Text × Text)} {known : List (Text × List Text)} {more : List ConfEntry}
    (named : isName name = true) (new : toLowerCase name ∉ known.map Prod.fst)
    (read : (.heading ("interface" : Text) :: entriesOf front).foldl Ini.step [] =
      [⟨"interface", known⟩])
    (form : entriesOf input.directives =
      entriesOf front ++ readLines iniLine (directiveLine (name, value)) ++ more) :
    (Ini.valuesOf (toLowerCase name) input.interfaceSection.fields).head? =
      some (trim (firstLine value)) := by
  obtain ⟨others, line⟩ := readLines_directiveLine_eq_cons named value
  obtain ⟨result, later, parsed, first⟩ := Ini.first_value_stays new read (trim (firstLine value))
    (others ++ more ++ (writtenPeers [] input.peers).flatMap fun peer =>
      .heading ("peer" : Text) :: entriesOf peer.directives)
  have whole : parseIniSections (buildWg0Conf input) = result :: later := by
    rw [parse_buildWg0Conf, form, line, ← parsed]
    simp only [List.append_assoc, List.cons_append]
  rw [decoded] at whole
  rw [(List.cons.inj whole).1]
  exact first

theorem entriesOf_cons (directive : Text × Text) (directives : List (Text × Text)) :
    entriesOf (directive :: directives) =
      readLines iniLine (directiveLine directive) ++ entriesOf directives :=
  List.flatMap_cons

theorem entriesOf_nil : entriesOf [] = [] := rfl

theorem WgConf.interfaceSection_fields (input : WgConf) :
    input.interfaceSection.fields =
      ([("privatekey", [trim input.privateKey]), ("address", [trim input.address]),
        ("mtu", [numeral input.mtuValue])] : List (Text × List Text)) :=
  rfl

theorem WgConf.privateKey_of_parse {input : WgConf}
    (decoded : parseIniSections (buildWg0Conf input) = input.sections) :
    '\n' ∉ trimRight input.privateKey := by
  have named : isName "PrivateKey" = true := by decide
  have name : toLowerCase "PrivateKey" = "privatekey" := by decide
  have form : entriesOf input.directives =
      entriesOf [] ++ readLines iniLine (directiveLine ("PrivateKey", input.privateKey)) ++
        entriesOf [("Address", input.address), ("MTU", numeral input.mtuValue)] := by
    rw [WgConf.directives, entriesOf_cons, entriesOf_nil, List.nil_append]
  have read : (.heading ("interface" : Text) :: entriesOf []).foldl Ini.step [] =
      [⟨"interface", []⟩] := rfl
  have new : toLowerCase "PrivateKey" ∉ ([] : List (Text × List Text)).map Prod.fst :=
    List.not_mem_nil
  have first := WgConf.first_of_parse decoded named new read form
  rw [name, WgConf.interfaceSection_fields, Ini.valuesOf_cons_self] at first
  have listed : input.interfaceSection ∈ input.sections := List.mem_cons_self
  have field : (("privatekey" : Text), [trim input.privateKey]) ∈ input.interfaceSection.fields :=
    List.mem_cons_self
  have free := newline_notMem_of_parse decoded listed field (List.mem_singleton_self _)
  exact newline_notMem_trimRight free (Option.some.inj first).symm

theorem WgConf.address_of_parse {input : WgConf}
    (decoded : parseIniSections (buildWg0Conf input) = input.sections) :
    '\n' ∉ trimRight input.address := by
  have named : isName "PrivateKey" = true := by decide
  have lower : toLowerCase "PrivateKey" = "privatekey" := by decide
  have name : toLowerCase "Address" = "address" := by decide
  have front : entriesOf [("PrivateKey", input.privateKey)] =
      [.directive "privatekey" (trim input.privateKey)] := by
    rw [entriesOf_of_line]
    · rw [List.map_singleton, lower]
    · exact List.forall_mem_singleton.mpr named
    · exact List.forall_mem_singleton.mpr (privateKey_of_parse decoded)
  have form : entriesOf input.directives =
      entriesOf [("PrivateKey", input.privateKey)] ++
        readLines iniLine (directiveLine ("Address", input.address)) ++
        entriesOf [("MTU", numeral input.mtuValue)] := by
    have one (directive : Text × Text) :
        entriesOf [directive] = readLines iniLine (directiveLine directive) :=
      List.flatMap_singleton _ directive
    rw [WgConf.directives, entriesOf_cons, entriesOf_cons, one, one, List.append_assoc]
  have read : (.heading ("interface" : Text) ::
      entriesOf [("PrivateKey", input.privateKey)]).foldl Ini.step [] =
        [⟨"interface", [("privatekey", [trim input.privateKey])]⟩] := by
    rw [front]
    rfl
  have new : toLowerCase "Address" ∉
      ([("privatekey", [trim input.privateKey])] : List (Text × List Text)).map Prod.fst := by
    rw [name, List.map_singleton, List.mem_singleton]
    exact show ¬ ("address" : Text) = "privatekey" by decide
  have addressed : isName "Address" = true := by decide
  have first := WgConf.first_of_parse decoded addressed new read form
  rw [name, WgConf.interfaceSection_fields, Ini.valuesOf_cons_of_ne (by decide),
    Ini.valuesOf_cons_self] at first
  have listed : input.interfaceSection ∈ input.sections := List.mem_cons_self
  have field : (("address" : Text), [trim input.address]) ∈ input.interfaceSection.fields :=
    List.mem_cons_of_mem _ List.mem_cons_self
  have free := newline_notMem_of_parse decoded listed field (List.mem_singleton_self _)
  exact newline_notMem_trimRight free (Option.some.inj first).symm

/-! ### The peers -/

/-- A directive that allows some IPs. -/
def isAllowing (key value : Text) : Bool := key = "allowedips" && value ≠ []

theorem allowedIPs_ne_nil_of_written {seen : List Text} {peers : List WgConfPeer}
    {peer : WgConfPeer} (member : peer ∈ writtenPeers seen peers) : trim peer.allowedIPs ≠ [] := by
  induction peers generalizing seen with
  | nil => cases member
  | cons other peers ih =>
      rw [writtenPeers] at member
      split_ifs at member with skipped blank
      · exact ih member
      · exact ih member
      · rcases List.mem_cons.mp member with rfl | member
        · exact blank
        · exact ih member

/-- A text that is trimmed has a first line with something on it. -/
theorem trim_firstLine_ne_nil {s : Text} (some : trim s ≠ []) :
    trim (firstLine (trim s)) ≠ [] := by
  obtain ⟨c, rest, form⟩ := List.exists_cons_of_ne_nil some
  have mark := head_trim form
  have first : firstLine (trim s) = c :: firstLine rest := by
    rw [form, firstLine, List.takeWhile_cons_of_pos]
    · rfl
    · rw [decide_eq_true_eq]
      rintro rfl
      exact absurd mark (by decide)
  rw [first, trim_of_head mark, ← List.nil_append (c :: _), trimRight_append_mark [] mark]
  exact List.cons_ne_nil _ _

/-- Every peer that is written allows some IPs. -/
theorem one_le_countP {peer : WgConfPeer} (some : trim peer.allowedIPs ≠ []) :
    1 ≤ (.heading ("peer" : Text) :: entriesOf peer.directives).countP
      (Ini.Entry.isWanted isAllowing) := by
  obtain ⟨more, line⟩ := readLines_directiveLine_eq_cons
    (show isName "AllowedIPs" = true by decide) (trim peer.allowedIPs)
  have name : toLowerCase "AllowedIPs" = "allowedips" := by decide
  have directive : (("AllowedIPs" : Text), trim peer.allowedIPs) ∈ peer.directives := by
    simp [WgConfPeer.directives]
  have member : .directive ("allowedips" : Text) (trim (firstLine (trim peer.allowedIPs))) ∈
      entriesOf peer.directives := by
    apply List.mem_flatMap_of_mem directive
    rw [line, name]
    exact List.mem_cons_self
  apply List.countP_pos_iff.mpr
  refine ⟨_, List.mem_cons_of_mem _ member, ?_⟩
  rw [Ini.Entry.isWanted, isAllowing, decide_eq_true rfl, Bool.true_and]
  exact decide_eq_true (trim_firstLine_ne_nil some)

theorem fieldsWeight_append (front back : List (Text × List Text)) :
    Ini.fieldsWeight isAllowing (front ++ back) =
      Ini.fieldsWeight isAllowing front + Ini.fieldsWeight isAllowing back := by
  rw [Ini.fieldsWeight, List.map_append, List.sum_append]
  rfl

theorem fieldsWeight_singleton (name value : Text) :
    Ini.fieldsWeight isAllowing [(name, [value])] = if isAllowing name value then 1 else 0 := by
  simp [Ini.fieldsWeight, List.countP_singleton]

theorem isAllowing_of_ne {name : Text} (different : name ≠ "allowedips") (value : Text) :
    isAllowing name value = false := by
  rw [isAllowing, decide_eq_false different, Bool.false_and]

theorem fieldsWeight_whenGiven {name : Text} (different : name ≠ "allowedips")
    (value : Option Text) :
    Ini.fieldsWeight isAllowing
      ((whenGiven name value).map fun field => (field.1, [field.2])) = 0 := by
  cases value with
  | none => rfl
  | some value =>
      rw [whenGiven, Option.toList_some, List.map_singleton, List.map_singleton,
        fieldsWeight_singleton, isAllowing_of_ne different]
      rfl

theorem weight_peerSection (peer : WgConfPeer) :
    Ini.fieldsWeight isAllowing peer.peerSection.fields =
      if trim peer.allowedIPs = [] then 0 else 1 := by
  have allowing : isAllowing "allowedips" (trim peer.allowedIPs) =
      decide (trim peer.allowedIPs ≠ []) := by
    rw [isAllowing, decide_eq_true rfl, Bool.true_and]
  have publicKey : isAllowing "publickey" (trim peer.publicKey) = false :=
    isAllowing_of_ne (by decide) _
  unfold WgConfPeer.peerSection
  rw [List.map_append, List.map_append, List.map_append, List.map_append, List.map_singleton,
    List.map_singleton, fieldsWeight_append, fieldsWeight_append, fieldsWeight_append,
    fieldsWeight_append, fieldsWeight_singleton, fieldsWeight_singleton,
    fieldsWeight_whenGiven (by decide), fieldsWeight_whenGiven (by decide),
    fieldsWeight_whenGiven (by decide), publicKey, allowing]
  by_cases blank : trim peer.allowedIPs = []
  · rw [if_pos blank, decide_eq_false (not_not_intro blank)]
    rfl
  · rw [if_neg blank, decide_eq_true blank]
    rfl

theorem weight_peerSections (peers : List WgConfPeer) :
    Ini.weight isAllowing (peers.map WgConfPeer.peerSection) =
      (peers.filter fun peer => trim peer.allowedIPs ≠ []).length := by
  induction peers with
  | nil => rfl
  | cons peer peers ih =>
      rw [Ini.weight] at ih ⊢
      rw [List.map_cons, List.map_cons, List.sum_cons, ih, weight_peerSection]
      by_cases blank : trim peer.allowedIPs = []
      · rw [if_pos blank, List.filter_cons_of_neg (by simp [blank]), Nat.zero_add]
      · rw [if_neg blank, List.filter_cons_of_pos (by simp [blank]), List.length_cons,
          Nat.add_comm]

theorem weight_interfaceSection (input : WgConf) :
    Ini.fieldsWeight isAllowing input.interfaceSection.fields = 0 := by
  rw [input.interfaceSection_fields, Ini.fieldsWeight_cons, Ini.fieldsWeight_cons,
    fieldsWeight_singleton, List.countP_singleton, List.countP_singleton,
    isAllowing_of_ne (by decide), isAllowing_of_ne (by decide), isAllowing_of_ne (by decide)]
  rfl

/-- No more peers are written than the text allows IPs to. -/
theorem length_writtenPeers_le (input : WgConf) :
    (writtenPeers [] input.peers).length ≤
      Ini.weight isAllowing (parseIniSections (buildWg0Conf input)) := by
  rw [parse_buildWg0Conf, Ini.weight_assemble, List.countP_append, List.countP_flatMap]
  refine Nat.le_trans ?_ (Nat.le_add_left _ _)
  have counted := List.length_le_sum_of_one_le
    ((writtenPeers [] input.peers).map fun peer =>
      (.heading ("peer" : Text) :: entriesOf peer.directives).countP
        (Ini.Entry.isWanted isAllowing)) (by
    intro count member
    obtain ⟨peer, written, rfl⟩ := List.mem_map.mp member
    exact one_le_countP (allowedIPs_ne_nil_of_written written))
  rw [List.length_map] at counted
  exact counted

/-- When the text is read as the configuration, the peers that are written are the
configured ones that name allowed IPs. -/
theorem writtenPeers_of_parse {input : WgConf}
    (decoded : parseIniSections (buildWg0Conf input) = input.sections) :
    writtenPeers [] input.peers =
      (configuredPeers [] input.peers).filter fun peer => trim peer.allowedIPs ≠ [] := by
  have listed : ((configuredPeers [] input.peers).filter fun peer =>
      trim peer.allowedIPs ≠ []).Sublist (writtenPeers [] input.peers) :=
    configured_sublist_written (List.Subset.refl [])
  have bound := length_writtenPeers_le input
  rw [decoded, WgConf.sections, ← List.singleton_append, Ini.weight_append, weight_peerSections,
    Ini.weight, List.map_singleton, List.sum_singleton, weight_interfaceSection, Nat.zero_add]
    at bound
  exact (listed.eq_of_length_le bound).symm

/-- The text of the configuration is read as the configuration exactly when the values
stay on their lines and the configured peers name allowed IPs. -/
theorem parse_eq_sections_iff (input : WgConf) :
    parseIniSections (buildWg0Conf input) = input.sections ↔ input.Safe := by
  constructor
  · intro decoded
    have privateKey := WgConf.privateKey_of_parse decoded
    have address := WgConf.address_of_parse decoded
    have lines : ∀ peer ∈ configuredPeers [] input.peers, peer.OneLine :=
      fun peer member => WgConfPeer.oneLine_of_parse decoded member
    have written := writtenPeers_of_parse decoded
    have parsed := parse_of_line privateKey address fun peer member =>
      lines peer (List.mem_of_mem_filter (written ▸ member))
    rw [decoded, WgConf.sections, List.cons.injEq] at parsed
    have lengths := congrArg List.length parsed.2
    rw [List.length_map, List.length_map, written] at lengths
    have all := List.filter_eq_self.mp ((List.filter_sublist).eq_of_length lengths.symm)
    exact ⟨⟨privateKey, address⟩, fun peer member =>
      ⟨of_decide_eq_true (all peer member), lines peer member⟩⟩
  · rintro ⟨⟨privateKey, address⟩, peers⟩
    have written : writtenPeers [] input.peers = configuredPeers [] input.peers :=
      writtenPeers_eq fun peer member => (peers peer member).1
    rw [parse_of_line privateKey address fun peer member => (peers peer (written ▸ member)).2,
      WgConf.sections, written]

end Proxora
