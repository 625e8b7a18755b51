import Mathlib.Data.List.Forall2
import Mathlib.Data.List.Nodup
import PortForwarding.Proofs.Desired
import PortForwarding.Proofs.Mapping

/-!
# What a Service can have

A Service that asks for ports can have them if its tokens name declared ports with
protocols that are known, no two of them the same port and no two of them the same
external port (`Accepts`). It then gets one rule for each token, in order, and the
token says which (`Grants`). Otherwise the first token that cannot be had after
those before it is reported, for the first thing that is wrong about it
(`Offends`).

The reader of a mapping keeps the names and external ports that it has seen;
`Taken` says that these are those of the tokens before.
-/

namespace PortForwarding

/-! ## Protocols by name -/

namespace Protocol

def words : Protocol → List String
  | .tcp => ["tcp"]
  | .udp => ["udp"]
  | .tcpUdp => ["tcp_udp", "tcp/udp"]

/-- **The text is a word for the protocol**, in capitals or small letters. -/
def Named (text : String) (protocol : Protocol) : Prop :=
  ∃ word ∈ protocol.words, Text.sameWord text word = true

variable {text : String} {protocol : Protocol}

theorem lower_of_mem_words {word : String} (h : word ∈ protocol.words) :
    word.toList.map Char.toLower = word.toList := by
  cases protocol with
  | tcp | udp =>
      obtain rfl := List.mem_singleton.mp h
      decide
  | tcpUdp =>
      rcases List.mem_pair.mp h with rfl | rfl <;> decide

theorem named_iff :
    Named text protocol ↔
      ∃ word ∈ protocol.words, text.toList.map Char.toLower = word.toList := by
  unfold Named Text.sameWord
  refine exists_congr fun word => and_congr_right fun hword => ?_
  rw [beq_iff_eq, lower_of_mem_words hword]

/-- **A protocol is read exactly from the words for it.** -/
theorem parse_eq_some_iff : parse text = some protocol ↔ Named text protocol := by
  rw [named_iff]
  unfold parse
  generalize text.toList.map Char.toLower = lower
  dsimp only
  split
  · next htcp =>
      subst htcp
      cases protocol <;> decide
  · split
    · next hudp =>
        subst hudp
        cases protocol <;> decide
    · split
      · next hboth => rcases hboth with rfl | rfl <;> cases protocol <;> decide
      · next htcp hudp hboth =>
          rw [not_or] at hboth
          cases protocol with
          | tcp => simpa [words] using htcp
          | udp => simpa [words] using hudp
          | tcpUdp => simpa [words] using hboth

theorem parse_eq_none_iff : parse text = none ↔ ∀ protocol, ¬Named text protocol := by
  rw [Option.eq_none_iff_forall_ne_some]
  exact forall_congr' fun protocol => not_congr parse_eq_some_iff

end Protocol

namespace Desired

/-! ## Tokens and declared ports -/

/-- **The first declared port of a name.** -/
def First (ports : List DeclaredPort) (name : String) (p : DeclaredPort) : Prop :=
  ∃ earlier later, ports = earlier ++ p :: later ∧
    (∀ q ∈ earlier, q.name ≠ name) ∧ p.name = name

/-- **The external port that a token comes to**: the one that it gives, or else
the declared port. -/
def ComesTo (view : ServiceView) (m : PortMapping) (external : UInt16) : Prop :=
  ∃ p, First view.ports m.port p ∧ external = m.external.getD p.port

/-- The token can be had after the tokens before it. -/
def Fits (view : ServiceView) (before : List PortMapping) (m : PortMapping) : Prop :=
  ∃ p, First view.ports m.port p ∧ m.port ∉ before.map PortMapping.port ∧
    (∀ m' ∈ before, ¬ComesTo view m' (m.external.getD p.port)) ∧
    ∃ protocol, Protocol.Named p.protocol protocol

/-- **The tokens can all be had.** -/
structure Accepts (view : ServiceView) (ms : List PortMapping) : Prop where
  declared : ∀ m ∈ ms, ∃ p, First view.ports m.port p ∧
    ∃ protocol, Protocol.Named p.protocol protocol
  names : (ms.map PortMapping.port).Nodup
  externals : ms.Pairwise fun m m' =>
    ∀ external, ComesTo view m external → ¬ComesTo view m' external

/-- **The token cannot be had** after those before it, for this reason first. -/
inductive Offends (view : ServiceView) (before : List PortMapping) (m : PortMapping) :
    DesiredError → Prop
  | unknown (hunknown : ∀ p ∈ view.ports, p.name ≠ m.port) :
      Offends view before m (.unknownPort m.port (view.ports.map DeclaredPort.name))
  | name (p : DeclaredPort) (hfirst : First view.ports m.port p)
      (hname : m.port ∈ before.map PortMapping.port) :
      Offends view before m (.duplicateName m.port)
  | external (p : DeclaredPort) (hfirst : First view.ports m.port p)
      (hname : m.port ∉ before.map PortMapping.port) (m' : PortMapping)
      (hbefore : m' ∈ before)
      (hexternal : ComesTo view m' (m.external.getD p.port)) :
      Offends view before m (.duplicatePort (m.external.getD p.port))
  | protocol (p : DeclaredPort) (hfirst : First view.ports m.port p)
      (hname : m.port ∉ before.map PortMapping.port)
      (hexternal : ∀ m' ∈ before, ¬ComesTo view m' (m.external.getD p.port))
      (hprotocol : ∀ protocol, ¬Protocol.Named p.protocol protocol) :
      Offends view before m (.unsupportedProtocol m.port (Text.lowered p.protocol))

/-- **The rule for a token.** -/
structure Grants (view : ServiceView) (defaults : RuleDefaults)
    (destination : Address) (m : PortMapping) (r : DesiredRule) : Prop where
  owner : r.owner = .of view.key m.port
  name : r.spec.name = r.owner.text
  /-- The internal port and the protocol are those of the first declared port of
  the name. -/
  declared : ∃ p, First view.ports m.port p ∧ r.slot.internal = p.port ∧
    r.slot.external = m.external.getD p.port ∧ Protocol.Named p.protocol r.slot.protocol
  destination : r.spec.destination = destination
  enabled : r.spec.enabled = defaults.enabled
  interface : r.spec.interface = defaults.interface
  source : r.spec.source = view.source?

variable {view : ServiceView} {defaults : RuleDefaults} {destination : Address}
  {names : List String} {ports : List UInt16} {before ms : List PortMapping}
  {m : PortMapping} {r : DesiredRule} {rules : List DesiredRule}
  {e : DesiredError} {p q : DeclaredPort} {external : UInt16} {text : String}

theorem first_iff {declared : List DeclaredPort} {name : String} :
    First declared name p ↔ declared.find? (fun q => q.name == name) = some p := by
  rw [List.find?_eq_some_iff_append]
  unfold First
  simp only [beq_iff_eq, Bool.not_eq_true', beq_eq_false_iff_ne]
  constructor
  · rintro ⟨earlier, later, hports, hearlier, hname⟩
    exact ⟨hname, earlier, later, hports, hearlier⟩
  · rintro ⟨hname, earlier, later, hports, hearlier⟩
    exact ⟨earlier, later, hports, hearlier, hname⟩

theorem First.eq {declared : List DeclaredPort} {name : String}
    (h : First declared name p) (h' : First declared name q) : p = q :=
  Option.some.inj ((first_iff.mp h).symm.trans (first_iff.mp h'))

theorem First.name_eq {declared : List DeclaredPort} {name : String}
    (h : First declared name p) : p.name = name := by
  obtain ⟨-, -, -, -, hname⟩ := h
  exact hname

theorem not_first_iff {declared : List DeclaredPort} {name : String} :
    (∀ p ∈ declared, p.name ≠ name) ↔
      declared.find? (fun q => q.name == name) = none := by
  simp

theorem Grants.comesTo (h : Grants view defaults destination m r) :
    ComesTo view m external ↔ external = r.slot.external := by
  obtain ⟨p, hfirst, -, hexternal, -⟩ := h.declared
  rw [hexternal]
  constructor
  · rintro ⟨q, hq, rfl⟩
    rw [hfirst.eq hq]
  · rintro rfl
    exact ⟨p, hfirst, rfl⟩

/-- **There is one rule for a token.** -/
theorem Grants.eq {r' : DesiredRule} (h : Grants view defaults destination m r)
    (h' : Grants view defaults destination m r') : r = r' := by
  obtain ⟨p, hfirst, hinternal, hexternal, hprotocol⟩ := h.declared
  obtain ⟨p', hfirst', hinternal', hexternal', hprotocol'⟩ := h'.declared
  obtain rfl := hfirst.eq hfirst'
  have hparse := Protocol.parse_eq_some_iff.mpr hprotocol
  have hparse' := Protocol.parse_eq_some_iff.mpr hprotocol'
  have hsame : r.slot.protocol = r'.slot.protocol :=
    Option.some.inj (hparse.symm.trans hparse')
  have howner : r.owner = r'.owner := h.owner.trans h'.owner.symm
  have hname : r.spec.name = r'.spec.name := by rw [h.name, h'.name, howner]
  have hdestination := h.destination.trans h'.destination.symm
  have henabled := h.enabled.trans h'.enabled.symm
  have hinterface := h.interface.trans h'.interface.symm
  have hsource := h.source.trans h'.source.symm
  have hin := hinternal.trans hinternal'.symm
  have hex := hexternal.trans hexternal'.symm
  obtain ⟨owner, name, ⟨ex, inn, proto⟩, dest, enabled, iface, source⟩ := r
  obtain ⟨owner', name', ⟨ex', inn', proto'⟩, dest', enabled', iface', source'⟩ := r'
  simp only [DesiredRule.slot] at *
  subst howner hname hdestination henabled hinterface hsource hin hex hsame
  rfl

theorem grants_rule {protocol : Protocol} (hfirst : First view.ports m.port p)
    (hnamed : Protocol.Named p.protocol protocol) (defaults : RuleDefaults)
    (destination : Address) :
    Grants view defaults destination m
      (rule view defaults destination p (m.external.getD p.port) protocol) :=
  ⟨congrArg (Owner.of view.key) hfirst.name_eq, rfl,
    ⟨p, hfirst, rfl, rfl, hnamed⟩, rfl, rfl, rfl, rfl⟩

/-! ## One token after those before it -/

/-- The tokens can be had with one more exactly if this one can be had
after them. -/
theorem accepts_snoc_iff :
    Accepts view (before ++ [m]) ↔ Accepts view before ∧ Fits view before m := by
  constructor
  · rintro ⟨hdeclared, hnames, hexternals⟩
    rw [List.map_append, List.nodup_append] at hnames
    rw [List.pairwise_append] at hexternals
    obtain ⟨p, hfirst, hprotocol⟩ := hdeclared m (by simp)
    refine ⟨⟨fun m' hm' => hdeclared m' (List.mem_append_left _ hm'), hnames.1,
      hexternals.1⟩,
      p, hfirst, fun hmem => hnames.2.2 _ hmem _ List.mem_cons_self rfl,
        fun m' hm' hcomes => ?_,
      hprotocol⟩
    exact hexternals.2.2 m' hm' m List.mem_cons_self _ hcomes ⟨p, hfirst, rfl⟩
  · rintro ⟨⟨hdeclared, hnames, hexternals⟩, p, hfirst, hname, hexternal, hprotocol⟩
    refine ⟨?_, ?_, ?_⟩
    · rw [List.forall_mem_append, List.forall_mem_singleton]
      exact ⟨hdeclared, p, hfirst, hprotocol⟩
    · rw [List.map_append]
      refine List.nodup_append.mpr ⟨hnames, List.nodup_singleton _, ?_⟩
      rintro _ hmem _ hm rfl
      exact hname ((List.mem_singleton.mp hm) ▸ hmem)
    · refine List.pairwise_append.mpr ⟨hexternals, List.pairwise_singleton _ _, ?_⟩
      intro m' hm' n hn x hcomes hcomes'
      obtain rfl := List.mem_singleton.mp hn
      obtain ⟨q, hq, rfl⟩ := hcomes'
      rw [← hfirst.eq hq] at hcomes
      exact hexternal m' hm' hcomes

theorem accepts_nil (view : ServiceView) : Accepts view [] :=
  ⟨List.forall_mem_nil _, List.nodup_nil, .nil⟩

theorem Accepts.of_append {later : List PortMapping}
    (h : Accepts view (before ++ later)) : Accepts view before :=
  ⟨fun m hm => h.declared m (List.mem_append_left _ hm),
    h.names.sublist ((List.sublist_append_left before later).map _),
    h.externals.sublist (List.sublist_append_left before later)⟩

theorem Accepts.fits {later : List PortMapping}
    (h : Accepts view (before ++ m :: later)) : Fits view before m := by
  rw [List.append_cons] at h
  exact (accepts_snoc_iff.mp h.of_append).2

/-- What has been taken are the names and the external ports of the tokens
before. -/
structure Taken (view : ServiceView) (before : List PortMapping) (names : List String)
    (ports : List UInt16) : Prop where
  names : ∀ name, name ∈ names ↔ name ∈ before.map PortMapping.port
  ports : ∀ external, external ∈ ports ↔ ∃ m ∈ before, ComesTo view m external

theorem taken_nil (view : ServiceView) : Taken view [] [] [] :=
  ⟨by simp, by simp⟩

theorem Taken.snoc (h : Taken view before names ports)
    (hr : Grants view defaults destination m r) :
    Taken view (before ++ [m]) (m.port :: names) (r.slot.external :: ports) := by
  constructor
  · intro name
    rw [List.mem_cons, h.names]
    simp [or_comm]
  · intro external
    rw [List.mem_cons, h.ports, ← hr.comesTo]
    simp [or_and_right, exists_or, or_comm]

theorem ruleFor_of_first (hfirst : First view.ports m.port p) :
    ruleFor view defaults destination names ports m =
      if m.port ∈ names then .error (.duplicateName m.port)
      else if m.external.getD p.port ∈ ports then
        .error (.duplicatePort (m.external.getD p.port))
      else
        match Protocol.parse p.protocol with
        | none => .error (.unsupportedProtocol m.port (Text.lowered p.protocol))
        | some protocol =>
          .ok (rule view defaults destination p (m.external.getD p.port) protocol) := by
  unfold ruleFor
  cases hparse : Protocol.parse p.protocol with
  | none => simp only [first_iff.mp hfirst, hfirst.name_eq, List.contains_iff_mem, hparse]
  | some protocol => simp only [first_iff.mp hfirst, List.contains_iff_mem, hparse]

theorem ruleFor_of_fits (h : Taken view before names ports)
    (hfits : Fits view before m) (hr : Grants view defaults destination m r) :
    ruleFor view defaults destination names ports m = .ok r := by
  obtain ⟨p, hfirst, hname, hexternal, protocol, hnamed⟩ := hfits
  have hfresh : m.external.getD p.port ∉ ports := by
    rw [h.ports]
    rintro ⟨m', hm', hcomes⟩
    exact hexternal m' hm' hcomes
  rw [ruleFor_of_first hfirst, if_neg (mt (h.names _).mp hname), if_neg hfresh,
    Protocol.parse_eq_some_iff.mpr hnamed]
  exact congrArg Except.ok ((grants_rule hfirst hnamed defaults destination).eq hr)

/-- One that cannot is reported for the first thing that is wrong about it. -/
theorem ruleFor_of_offends (h : Taken view before names ports)
    (hoffends : Offends view before m e) (defaults : RuleDefaults)
    (destination : Address) :
    ruleFor view defaults destination names ports m = .error e := by
  cases hoffends with
  | unknown hunknown =>
      unfold ruleFor
      simp only [not_first_iff.mp hunknown]
  | name p hfirst hname => rw [ruleFor_of_first hfirst, if_pos ((h.names _).mpr hname)]
  | external p hfirst hname m' hbefore hcomes =>
      rw [ruleFor_of_first hfirst, if_neg (mt (h.names _).mp hname),
        if_pos ((h.ports _).mpr ⟨m', hbefore, hcomes⟩)]
  | protocol p hfirst hname hexternal hprotocol =>
      have hfresh : m.external.getD p.port ∉ ports := by
        rw [h.ports]
        rintro ⟨m', hm', hcomes⟩
        exact hexternal m' hm' hcomes
      rw [ruleFor_of_first hfirst, if_neg (mt (h.names _).mp hname), if_neg hfresh,
        Protocol.parse_eq_none_iff.mpr hprotocol]

theorem fits_or_offends (view : ServiceView) (before : List PortMapping)
    (m : PortMapping) : Fits view before m ∨ ∃ e, Offends view before m e := by
  by_cases hdeclared : ∃ p, First view.ports m.port p
  · obtain ⟨p, hfirst⟩ := hdeclared
    by_cases hname : m.port ∈ before.map PortMapping.port
    · exact Or.inr ⟨_, .name p hfirst hname⟩
    · by_cases hexternal : ∃ m' ∈ before, ComesTo view m' (m.external.getD p.port)
      · obtain ⟨m', hm', hcomes⟩ := hexternal
        exact Or.inr ⟨_, .external p hfirst hname m' hm' hcomes⟩
      · have hfree : ∀ m' ∈ before, ¬ComesTo view m' (m.external.getD p.port) :=
          fun m' hm' hcomes => hexternal ⟨m', hm', hcomes⟩
        by_cases hprotocol : ∃ protocol, Protocol.Named p.protocol protocol
        · exact Or.inl ⟨p, hfirst, hname, hfree, hprotocol⟩
        · exact Or.inr ⟨_, .protocol p hfirst hname hfree (not_exists.mp hprotocol)⟩
  · refine Or.inr ⟨_, .unknown (not_first_iff.mpr ?_)⟩
    rw [Option.eq_none_iff_forall_ne_some]
    exact fun p hp => hdeclared ⟨p, first_iff.mpr hp⟩

/-! ## All tokens of a mapping -/

theorem rulesForAll_cons_of_ok
    (h : ruleFor view defaults destination names ports m = .ok r) :
    rulesForAll view defaults destination names ports (m :: ms) =
      (rulesForAll view defaults destination (m.port :: names)
        (r.slot.external :: ports) ms).map (r :: ·) := by
  rw [rulesForAll, h]
  rfl

theorem rulesForAll_cons_of_error
    (h : ruleFor view defaults destination names ports m = .error e) :
    rulesForAll view defaults destination names ports (m :: ms) = .error e := by
  rw [rulesForAll, h]
  rfl

theorem rulesForAll_of_accepts (h : Taken view before names ports)
    (haccepts : Accepts view (before ++ ms))
    (hall : List.Forall₂ (Grants view defaults destination) ms rules) :
    rulesForAll view defaults destination names ports ms = .ok rules := by
  induction hall generalizing before names ports with
  | nil => rfl
  | cons hr _ ih =>
      rw [rulesForAll_cons_of_ok (ruleFor_of_fits h haccepts.fits hr)]
      rw [List.append_cons] at haccepts
      rw [ih (h.snoc hr) haccepts]
      rfl

/-- Of other tokens the first one is reported that cannot be had after those
before it. -/
theorem rulesForAll_of_offends {good later : List PortMapping} {bad : PortMapping}
    (h : Taken view before names ports) (hgood : Accepts view (before ++ good))
    (hbad : Offends view (before ++ good) bad e) (defaults : RuleDefaults)
    (destination : Address) :
    rulesForAll view defaults destination names ports (good ++ bad :: later) =
      .error e := by
  induction good generalizing before names ports with
  | nil =>
      rw [List.append_nil] at hbad
      exact rulesForAll_cons_of_error (ruleFor_of_offends h hbad defaults destination)
  | cons m good ih =>
      obtain ⟨p, hfirst, protocol, hnamed⟩ := hgood.declared m (by simp)
      have hr := grants_rule hfirst hnamed defaults destination
      rw [List.cons_append, rulesForAll_cons_of_ok (ruleFor_of_fits h hgood.fits hr)]
      rw [List.append_cons] at hgood hbad
      rw [ih (h.snoc hr) hgood hbad]
      rfl

theorem accepts_or_offends (view : ServiceView) (ms : List PortMapping) :
    Accepts view ms ∨ ∃ good bad later e, ms = good ++ bad :: later ∧
      Accepts view good ∧
      Offends view good bad e := by
  induction ms using List.reverseRecOn with
  | nil => exact Or.inl (accepts_nil view)
  | append_singleton ms m ih =>
      rcases ih with haccepts | ⟨good, bad, later, e, rfl, hgood, hbad⟩
      · rcases fits_or_offends view ms m with hfits | ⟨e, hoffends⟩
        · exact Or.inl (accepts_snoc_iff.mpr ⟨haccepts, hfits⟩)
        · exact Or.inr ⟨ms, m, [], e, rfl, haccepts, hoffends⟩
      · exact Or.inr ⟨good, bad, later ++ [m], e, by simp, hgood, hbad⟩

/-! ## The wishes of a Service -/

/-- **The Service asks for what these tokens say**, and its traffic goes to
this destination. -/
structure Asks (view : ServiceView) (destination : Address)
    (ms : List PortMapping) : Prop where
  destination : view.destination = some destination
  mapping : ∃ text, view.mapping? = some text ∧ Mapping.parse text = .ok ms

/-- **The Service gets these rules**: none if it asks for nothing, and otherwise
one for each token, in order, if all of them can be had. -/
inductive Gets (view : ServiceView) (defaults : RuleDefaults) :
    List DesiredRule → Prop
  | nothing (hnone : view.mapping? = none) : Gets view defaults []
  | granted (destination : Address) (ms : List PortMapping) (rules : List DesiredRule)
      (hasks : Asks view destination ms) (haccepts : Accepts view ms)
      (hall : List.Forall₂ (Grants view defaults destination) ms rules) :
        Gets view defaults rules

/-- **The Service cannot have what it asks for**: it has no destination,
its mapping does not read, or one of its tokens cannot be had after those
before it. -/
inductive Refused (view : ServiceView) : DesiredError → Prop
  | noDestination (text : String) (hmapping : view.mapping? = some text)
      (hnone : view.destination = none) : Refused view .noDestination
  | mapping (text : String) (destination : Address) (e : MappingError)
      (hmapping : view.mapping? = some text) (hsome : view.destination = some destination)
      (herror : Mapping.parse text = .error e) : Refused view (.mapping e)
  | token (destination : Address) (good later : List PortMapping) (bad : PortMapping)
      (e : DesiredError) (hasks : Asks view destination (good ++ bad :: later))
      (hgood : Accepts view good) (hbad : Offends view good bad e) : Refused view e

theorem rulesFor_of_asks (h : Asks view destination ms) (defaults : RuleDefaults) :
    rulesFor view defaults = rulesForAll view defaults destination [] [] ms := by
  obtain ⟨hdestination, text, hmapping, hparse⟩ := h
  simp [rulesFor, hmapping, hdestination, hparse]

theorem rulesFor_of_gets (h : Gets view defaults rules) :
    rulesFor view defaults = .ok rules := by
  cases h with
  | nothing hnone => simp [rulesFor, hnone]
  | granted destination ms _ hasks haccepts hall =>
      rw [rulesFor_of_asks hasks]
      exact rulesForAll_of_accepts (taken_nil view) haccepts hall

theorem rulesFor_of_refused (h : Refused view e) (defaults : RuleDefaults) :
    rulesFor view defaults = .error e := by
  cases h with
  | noDestination text hmapping hnone => simp [rulesFor, hmapping, hnone]
  | mapping text destination e hmapping hsome herror =>
      simp [rulesFor, hmapping, hsome, herror]
  | token destination good later bad e hasks hgood hbad =>
      rw [rulesFor_of_asks hasks]
      exact rulesForAll_of_offends (taken_nil view) hgood hbad defaults destination

theorem Accepts.exists_granted (h : Accepts view ms) (defaults : RuleDefaults)
    (destination : Address) :
    ∃ rules, List.Forall₂ (Grants view defaults destination) ms rules := by
  refine Mapping.exists_forall₂_iff.mpr fun m hm => ?_
  obtain ⟨p, hfirst, protocol, hnamed⟩ := h.declared m hm
  exact ⟨_, grants_rule hfirst hnamed defaults destination⟩

/-- **A Service gets rules or it is refused.** -/
theorem gets_or_refused (view : ServiceView) (defaults : RuleDefaults) :
    (∃ rules, Gets view defaults rules) ∨ ∃ e, Refused view e := by
  cases hmapping : view.mapping? with
  | none => exact Or.inl ⟨[], .nothing hmapping⟩
  | some text =>
      cases hdestination : view.destination with
      | none => exact Or.inr ⟨_, .noDestination text hmapping hdestination⟩
      | some destination =>
          cases hparse : Mapping.parse text with
          | error e =>
              exact Or.inr ⟨_,
                .mapping text destination e hmapping hdestination hparse⟩
          | ok ms =>
              have hasks : Asks view destination ms :=
                ⟨hdestination, text, hmapping, hparse⟩
              rcases accepts_or_offends view ms with
                haccepts | ⟨good, bad, later, e, rfl, hgood, hbad⟩
              · obtain ⟨rules, hall⟩ := haccepts.exists_granted defaults destination
                exact Or.inl ⟨rules, .granted destination ms rules hasks haccepts hall⟩
              · exact Or.inr ⟨e, .token destination good later bad e hasks hgood hbad⟩

/-- **The rules that are worked out are those that the Service gets.** -/
theorem rulesFor_eq_ok_iff :
    rulesFor view defaults = .ok rules ↔ Gets view defaults rules := by
  refine ⟨fun h => ?_, rulesFor_of_gets⟩
  rcases gets_or_refused view defaults with ⟨rules', hgets⟩ | ⟨e, hrefused⟩
  · obtain rfl := Except.ok.inj (h.symm.trans (rulesFor_of_gets hgets))
    exact hgets
  · exact absurd (h.symm.trans (rulesFor_of_refused hrefused defaults)) (by simp)

/-- **What is reported is why it is refused.** -/
theorem rulesFor_eq_error_iff :
    rulesFor view defaults = .error e ↔ Refused view e := by
  refine ⟨fun h => ?_, fun h => rulesFor_of_refused h defaults⟩
  rcases gets_or_refused view defaults with ⟨rules, hgets⟩ | ⟨e', hrefused⟩
  · exact absurd (h.symm.trans (rulesFor_of_gets hgets)) (by simp)
  · obtain rfl := Except.error.inj (h.symm.trans (rulesFor_of_refused hrefused defaults))
    exact hrefused

theorem owners_nodup (hnames : (ms.map PortMapping.port).Nodup)
    (h : List.Forall₂ (Grants view defaults destination) ms rules) :
    (rules.map DesiredRule.owner).Nodup := by
  have howners :
      rules.map DesiredRule.owner =
          (ms.map PortMapping.port).map (Owner.of view.key) := by
    clear hnames
    induction h with
    | nil => rfl
    | cons hr _ ih => rw [List.map_cons, List.map_cons, List.map_cons, hr.owner, ih]
  rw [howners]
  exact hnames.map fun x y hxy => congrArg Owner.port hxy

theorem Gets.owners_nodup (h : Gets view defaults rules) :
    (rules.map DesiredRule.owner).Nodup := by
  cases h with
  | nothing hnone => exact List.nodup_nil
  | granted destination ms _ hasks haccepts hall =>
      exact Desired.owners_nodup haccepts.names hall

/-- **The rules of a Service are complete and unique**: which Services get rules,
which rules these are, one for each token and no two alike, and what is reported
of the others. -/
theorem rulesFor_exact (view : ServiceView) (defaults : RuleDefaults) :
    ((∃ rules, rulesFor view defaults = .ok rules) ↔
      view.mapping? = none ∨
        ∃ destination ms, Asks view destination ms ∧ Accepts view ms) ∧
    (∀ rules, rulesFor view defaults = .ok rules ↔ Gets view defaults rules) ∧
    (∀ rules, rulesFor view defaults = .ok rules → (externalPorts rules).Nodup ∧
      (rules.map DesiredRule.slot).Nodup ∧ (rules.map DesiredRule.owner).Nodup) ∧
    ∀ e, rulesFor view defaults = .error e ↔ Refused view e := by
  refine ⟨?_, fun _ => rulesFor_eq_ok_iff, fun rules hrules =>
    ⟨rulesFor_ports_nodup hrules,
    (rulesFor_wanted hrules).slots_nodup, (rulesFor_eq_ok_iff.mp hrules).owners_nodup⟩,
    fun _ => rulesFor_eq_error_iff⟩
  simp only [rulesFor_eq_ok_iff]
  constructor
  · rintro ⟨rules, hgets⟩
    cases hgets with
    | nothing hnone => exact Or.inl hnone
    | granted destination ms _ hasks haccepts =>
        exact Or.inr ⟨destination, ms, hasks, haccepts⟩
  · rintro (hnone | ⟨destination, ms, hasks, haccepts⟩)
    · exact ⟨[], .nothing hnone⟩
    · obtain ⟨rules, hall⟩ := haccepts.exists_granted defaults destination
      exact ⟨rules, .granted destination ms rules hasks haccepts hall⟩

end Desired

/-! ## A Service that asks for ports by name -/

namespace Sample

def asking (mapping : String) : ServiceView :=
  { key := key
    annotations := [(Mark.ports, mapping)]
    ports := [⟨"http", 80, "TCP"⟩, ⟨"http", 81, "UDP"⟩, ⟨"dns", 53, "Tcp/udp"⟩,
      ⟨"vpn", 1, "SCTP"⟩]
    destination := some (.v4 10 0 0 5)
    deleting := false
    hasFinalizer := true
    reference := default }

def granted : List DesiredRule :=
  [wish "http" 8080 80, { wish "dns" 53 53 with spec := {
    (wish "dns" 53 53).spec with slot := ⟨53, 53, .tcpUdp⟩ } }]

end Sample

namespace Desired

open Sample

/-- Two tokens get their rules; of three the second comes to the external port of
the first. -/
theorem rulesFor_exact_asking :
    Gets (asking "http:8080, dns") {} granted ∧ (externalPorts granted).Nodup ∧
      (granted.map DesiredRule.owner).Nodup ∧
      Refused (asking "http:53,dns,vpn") (.duplicatePort 53) := by
  obtain ⟨-, hgets, hunique, -⟩ := rulesFor_exact (asking "http:8080, dns") {}
  obtain ⟨-, -, -, hrefused⟩ := rulesFor_exact (asking "http:53,dns,vpn") {}
  have hrules : rulesFor (asking "http:8080, dns") {} = .ok granted := by decide
  obtain ⟨hports, -, howners⟩ := hunique granted hrules
  exact ⟨(hgets granted).mp hrules, hports, howners, (hrefused _).mp (by decide)⟩

end Desired

end PortForwarding
