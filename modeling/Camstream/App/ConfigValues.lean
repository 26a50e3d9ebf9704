import Camstream.App.Config

/-!
# What the command line says

An argument vector that `app_config_parse` accepts is a list of flags and of options with their values
(`exists_items_of_parse`), whichever spelling they have. What a field holds in the end comes from the last value
that its option is given; `noSilentWrap_iff` compares it with the number that this text denotes, and the products
and sums that are made of the fields with the true ones.

A number is cast to the type of its field before it is checked, so that the check looks at the number modulo
`2 ^ 16` or `2 ^ 32`.
-/

namespace Camstream

open CString Run

/-! ### Arguments -/

/-- The spellings of an option. -/
def Opt.names (o : Opt) : List (List UInt8) :=
  o.shortName.toList ++ [o.longName]

/-- The arguments that are compared as a whole. -/
def flags : List (List UInt8) :=
  [ascii "-h", ascii "--help", ascii "-V", ascii "--version", ascii "-t", ascii "--test", ascii "-v",
    ascii "--verbose"]

/-- A flag, or an option with its value, which is the next argument or is joined to the name. -/
inductive Item
  | test (long : Bool)
  | verbose (long : Bool)
  | value (o : Opt) (name : {name // name ∈ o.names}) (joined : Bool) (text : List UInt8)

/-- The arguments that an item is made of. -/
def Item.render : Item → List (List UInt8)
  | .test false => [ascii "-t"]
  | .test true => [ascii "--test"]
  | .verbose false => [ascii "-v"]
  | .verbose true => [ascii "--verbose"]
  | .value _ name false text => [name.1, text]
  | .value _ name true text => [name.1 ++ 0x3D :: text]

/-- What an item does to the configuration, unless it ends the parsing. -/
def Item.apply (bits : ℕ) (config : AppConfig) : Item → Option AppConfig
  | .test _ => some { config with useTestSource := true }
  | .verbose _ => some { config with verbose := true }
  | .value o _ _ text => (setOpt bits config o text).toOption

/-- The text that an item gives to a number. -/
def Item.textOf (o : NumberOpt) : Item → Option (List UInt8)
  | .value o' _ _ text => if o' = .number o then some text else none
  | _ => none

/-- The text that a number is given last. -/
def lastText (o : NumberOpt) (items : List Item) : Option (List UInt8) :=
  (items.filterMap (Item.textOf o)).getLast?

/-! ### Fields -/

/-- The field of a number. -/
def AppConfig.number (config : AppConfig) : NumberOpt → ℕ
  | .width => config.width.toNat
  | .height => config.height.toNat
  | .fps => config.fps.toNat
  | .httpPort => config.httpPort.toNat
  | .udpPort => config.udpBasePort.toNat
  | .janusRtpPort => config.janusRtpPort.toNat
  | .janusRtcpPort => config.janusRtcpPort.toNat
  | .janusRtcpListen => config.janusRtcpListen.toNat
  | .bitrate => config.bitrateKbps.toNat
  | .keyframe => config.keyframeSeconds.toNat

/-- The bits of its type. -/
def NumberOpt.size : NumberOpt → ℕ
  | .width | .height | .fps | .bitrate | .keyframe => 32
  | .httpPort | .udpPort | .janusRtpPort | .janusRtcpPort | .janusRtcpListen => 16

/-- `(uint16_t) (udp_base_port + slot)`, the port of a session. -/
def AppConfig.udpPort (config : AppConfig) (slot : ℕ) : UInt16 :=
  UInt16.ofNat (config.udpBasePort.toNat + slot)

/-- `(int32_t) (fps * gop_seconds)`, the interval of key frames that an encoder is asked for. -/
def AppConfig.gopFrames (config : AppConfig) : Int32 :=
  (config.fps * config.keyframeSeconds).toInt32

/-- `(int32_t) (bitrate_kbps * 1000)`, the bit rate that it is asked for. -/
def AppConfig.bitrate (config : AppConfig) : Int32 :=
  (config.bitrateKbps * 1000).toInt32

/-! ### The values that are meant -/

/-- A number is given a value: by the last text for it, or by default. -/
def Given (items : List Item) (default : AppConfig) (o : NumberOpt) (z : ℤ) : Prop :=
  match lastText o items with
  | none => z = default.number o
  | some text => Numeral text z

/-- Every field has the value it is given, and so has what is computed from the fields. -/
structure NoSilentWrap (items : List Item) (default config : AppConfig) : Prop where
  number : ∀ o, Given items default o (config.number o)
  udpPort : ∀ slot < 8, (config.udpPort slot).toNat = config.udpBasePort.toNat + slot
  gopFrames : config.gopFrames.toInt = config.fps.toNat * config.keyframeSeconds.toNat
  bitrate : config.bitrate.toInt = config.bitrateKbps.toNat * 1000

/-- The values that are given fit: those of texts the types of their fields and a `long`, and the results the
types that they are computed in. -/
structure ValuesFit (bits : ℕ) (items : List Item) (default : AppConfig) : Prop where
  text : ∀ o text, lastText o items = some text → ∃ z, Numeral text z ∧ z < 2 ^ o.size ∧ z < 2 ^ (bits - 1)
  udpPort : ∀ z, Given items default .udpPort z → z + 7 < 2 ^ 16
  gopFrames : ∀ f k, Given items default .fps f → Given items default .keyframe k → f * k < 2 ^ 31
  bitrate : ∀ z, Given items default .bitrate z → z * 1000 < 2 ^ 31

/-- A command line gives an option one number at most. -/
theorem Given.unique {items : List Item} {default : AppConfig} {o : NumberOpt} {z z' : ℤ}
    (h : Given items default o z) (h' : Given items default o z') : z = z' := by
  rw [Given] at h h'
  rcases hlast : lastText o items with - | text
  · rw [hlast] at h h'
    exact h.trans h'.symm
  · rw [hlast] at h h'
    exact h.unique h'

/-! ### Names -/

/-- What holds of every option can be checked along the list of them. -/
theorem Opt.mem_options (o : Opt) : o ∈ options := by
  rcases o with o | o <;> cases o <;> decide

/-- No name of an option has an equals sign, is that of another option, or is a flag. -/
theorem name_spec : ∀ o ∈ options, ∀ name ∈ o.names, (name.length < 64 ∧ 0x3D ∉ name) ∧
    (options.find? fun o' ↦ o'.shortName = some name ∨ o'.longName = name) = some o ∧
      name ∉ flags := by
  decide +kernel

theorem notMem_of_mem_flags : ∀ flag ∈ flags, 0x3D ∉ flag := by
  decide +kernel

theorem mem_names {o : Opt} {name : List UInt8} :
    name ∈ o.names ↔ o.shortName = some name ∨ o.longName = name := by
  rw [Opt.names, List.mem_append, Option.mem_toList, List.mem_singleton]
  exact or_congr_right eq_comm

/-- An option that an argument begins with. -/
theorem matchOpt_of_head {arg name : List UInt8} {o : Opt} (hhead : arg.takeWhile (· ≠ 0x3D) = name)
    (hlength : name.length < 64) :
    matchOpt arg o = if o.shortName = some name ∨ o.longName = name then
      some (if 0x3D ∈ arg then some (arg.drop (name.length + 1)) else none) else none := by
  rw [matchOpt, hhead, if_neg (Nat.not_le.2 hlength)]

/-- The first match is the first one in the list. -/
theorem findSome?_ite {α β : Type*} (l : List α) (p : α → Prop) [DecidablePred p] (f : α → β) :
    (l.findSome? fun a ↦ if p a then some (f a) else none) = (l.find? fun a ↦ p a).map f := by
  induction l with
  | nil => rfl
  | cons a l ih =>
    rw [List.findSome?_cons, List.find?_cons]
    rcases em (p a) with h | h
    · rw [if_pos h, decide_eq_true h]
      rfl
    · rw [if_neg h, decide_eq_false h]
      exact ih

/-- **A spelling of an option is found as this option**, with what is behind an equals sign. -/
theorem findOpt_name {o : Opt} {name : List UInt8} (h : name ∈ o.names) :
    findOpt name = some (o, none) ∧
      ∀ text, findOpt (name ++ 0x3D :: text) = some (o, some text) := by
  obtain ⟨⟨hlength, heq⟩, hfind, -⟩ := name_spec o o.mem_options name h
  constructor
  · have hmatch : ∀ o', matchOpt name o' =
        if o'.shortName = some name ∨ o'.longName = name then some none else none := fun o' ↦ by
      rw [matchOpt_of_head (takeWhile_ne_eq_self heq) hlength, if_neg heq]
    simp only [findOpt, hmatch, apply_ite (Option.map _), Option.map_some, Option.map_none]
    rw [findSome?_ite, hfind, Option.map_some]
  · intro text
    have hmem : 0x3D ∈ name ++ 0x3D :: text := List.mem_append_right _ List.mem_cons_self
    have hdrop : (name ++ 0x3D :: text).drop (name.length + 1) = text := by
      rw [← List.drop_drop, List.drop_left, List.drop_one, List.tail_cons]
    have hmatch : ∀ o', matchOpt (name ++ 0x3D :: text) o' =
        if o'.shortName = some name ∨ o'.longName = name then some (some text) else none := fun o' ↦ by
      rw [matchOpt_of_head (takeWhile_ne_append heq text) hlength, if_pos hmem, hdrop]
    simp only [findOpt, hmatch, apply_ite (Option.map _), Option.map_some, Option.map_none]
    rw [findSome?_ite, hfind, Option.map_some]

/-- What matches is a spelling of an option, alone or in front of an equals sign. -/
theorem exists_name_of_matchOpt {arg : List UInt8} {o : Opt} {value : Option (List UInt8)}
    (h : matchOpt arg o = some value) :
    ∃ name ∈ o.names, arg = name ++ (value.elim [] fun text ↦ 0x3D :: text) := by
  rw [matchOpt] at h
  split_ifs at h with hlength hname hmem
  · obtain rfl := Option.some.inj h
    refine ⟨_, mem_names.2 hname, ?_⟩
    obtain ⟨after, hafter⟩ := exists_eq_append_cons hmem
    have hdrop := congrArg (List.drop ((arg.takeWhile (· ≠ 0x3D)).length + 1)) hafter
    rw [← List.drop_drop, ← List.drop_drop, List.drop_left, List.drop_one, List.drop_one,
      List.tail_cons] at hdrop
    rw [← List.drop_drop, List.drop_one, hdrop]
    exact hafter
  · obtain rfl := Option.some.inj h
    refine ⟨_, mem_names.2 hname, ?_⟩
    rw [takeWhile_ne_eq_self hmem]
    exact (List.append_nil arg).symm

/-- An argument that is an option is its name, with the value behind an equals sign or not. -/
theorem exists_name_of_findOpt {arg : List UInt8} {o : Opt} {value : Option (List UInt8)}
    (h : findOpt arg = some (o, value)) :
    ∃ name ∈ o.names, arg = name ++ (value.elim [] fun text ↦ 0x3D :: text) := by
  obtain ⟨o', -, hmatch⟩ := List.exists_of_findSome?_eq_some h
  obtain ⟨value', hvalue, heq⟩ := Option.map_eq_some_iff.1 hmatch
  obtain ⟨rfl, rfl⟩ := Prod.mk.inj heq
  exact exists_name_of_matchOpt hvalue

/-! ### Items -/

variable {build : Build} {bits : ℕ} {config config' : AppConfig} {items : List Item}
  {args : List (List UInt8)} {printed : List UInt8}

/-- An option that ends the parsing does not end it with `0`. -/
theorem setOpt_ne_ret_zero {o : Opt} {text : List UInt8} {outcome : Outcome}
    (h : setOpt bits config o text = .error outcome) : outcome ≠ .ret 0 config' printed := by
  rcases o with o | o
  · rw [setOpt] at h
    split_ifs at h
    obtain rfl := Except.error.inj h
    intro hret
    exact absurd (Outcome.ret.inj hret).1 (by decide)
  · rw [setOpt] at h
    rcases hparse : parseLong bits text o.name with message | result
    · rw [hparse] at h
      obtain rfl := Except.error.inj h
      exact Outcome.noConfusion
    · rw [hparse] at h
      cases h

/-- The checks at the end leave the configuration as it is. -/
theorem eq_of_appConfigCheck (h : appConfigCheck build config = .ret 0 config' printed) : config' = config := by
  cases build <;> rw [appConfigCheck] at h <;> split_ifs at h <;> exact (Outcome.ret.inj h).2.1.symm

/-- **An accepted argument vector is made of items.** -/
theorem exists_items_of_parse (h : appConfigParse build bits config args = .ret 0 config' printed) :
    ∃ items : List Item, args = items.flatMap Item.render := by
  -- The induction is on the loop of the parser. The cases that leave it early contradict `h`.
  fun_induction appConfigParse build bits config args with
  | case1 config => exact ⟨[], rfl⟩
  | case2 config arg args hhelp => exact absurd (Outcome.ret.inj h).1 (by decide)
  | case3 config arg args hhelp hversion => exact Outcome.noConfusion h
  | case4 config arg args hhelp hversion htest ih =>
    obtain ⟨items, rfl⟩ := ih h
    rcases htest with rfl | rfl
    · exact ⟨.test false :: items, rfl⟩
    · exact ⟨.test true :: items, rfl⟩
  | case5 config arg args hhelp hversion htest hverbose ih =>
    obtain ⟨items, rfl⟩ := ih h
    rcases hverbose with rfl | rfl
    · exact ⟨.verbose false :: items, rfl⟩
    · exact ⟨.verbose true :: items, rfl⟩
  | case6 config arg args hhelp hversion htest hverbose hfind =>
    exact absurd (Outcome.ret.inj h).1 (by decide)
  | case7 config arg args hhelp hversion htest hverbose o text hfind config' hset ih =>
    obtain ⟨items, rfl⟩ := ih h
    obtain ⟨name, hname, rfl⟩ := exists_name_of_findOpt hfind
    exact ⟨.value o ⟨name, hname⟩ true text :: items, rfl⟩
  | case8 config arg args hhelp hversion htest hverbose o text hfind outcome hset =>
    exact absurd h (setOpt_ne_ret_zero hset)
  | case9 config arg hhelp hversion htest hverbose o hfind => exact Outcome.noConfusion h
  | case10 config arg hhelp hversion htest hverbose o hfind text args config' hset ih =>
    obtain ⟨items, rfl⟩ := ih h
    obtain ⟨name, hname, rfl⟩ := exists_name_of_findOpt hfind
    refine ⟨.value o ⟨name, hname⟩ false text :: items, ?_⟩
    rw [Option.elim_none, List.append_nil]
    rfl
  | case11 config arg hhelp hversion htest hverbose o hfind text args outcome hset =>
    exact absurd h (setOpt_ne_ret_zero hset)

/-- An argument that is no flag is looked up among the options; its value is joined to it, or the next
argument. -/
theorem exists_setOpt_of_parse {arg text : List UInt8} {o : Opt} {value : Option (List UInt8)}
    {rest : List (List UInt8)} (harg : arg ∉ flags) (hfind : findOpt arg = some (o, value))
    (hvalue : value = some text ∧ rest = args ∨ value = none ∧ rest = text :: args)
    (h : appConfigParse build bits config (arg :: rest) = .ret 0 config' printed) :
    ∃ next, setOpt bits config o text = .ok next ∧
      appConfigParse build bits next args = .ret 0 config' printed := by
  simp only [flags, List.mem_cons, List.not_mem_nil, or_false, not_or] at harg
  obtain ⟨h1, h2, h3, h4, h5, h6, h7, h8⟩ := harg
  rw [appConfigParse, if_neg (not_or.2 ⟨h1, h2⟩), if_neg (not_or.2 ⟨h3, h4⟩), if_neg (not_or.2 ⟨h5, h6⟩),
    if_neg (not_or.2 ⟨h7, h8⟩), hfind] at h
  rcases hset : setOpt bits config o text with outcome | next <;>
    rcases hvalue with ⟨rfl, rfl⟩ | ⟨rfl, rfl⟩ <;> dsimp only at h <;> rw [hset] at h
  · exact absurd h (setOpt_ne_ret_zero hset)
  · exact absurd h (setOpt_ne_ret_zero hset)
  · exact ⟨next, rfl, h⟩
  · exact ⟨next, rfl, h⟩

/-- **What the parsing of items does**: one after the other changes the configuration. -/
theorem exec_of_parse (h : appConfigParse build bits config (items.flatMap Item.render) = .ret 0 config' printed) :
    exec (Item.apply bits) config items = some config' := by
  induction items generalizing config with
  | nil =>
    obtain rfl := eq_of_appConfigCheck h
    rfl
  | cons item items ih =>
    rw [List.flatMap_cons] at h
    cases item with
    | test long => cases long <;> exact exec_cons_of_step rfl (ih h)
    | verbose long => cases long <;> exact exec_cons_of_step rfl (ih h)
    | value o name joined text =>
      obtain ⟨name, hname⟩ := name
      obtain ⟨⟨-, heq⟩, -, hflags⟩ := name_spec o o.mem_options name hname
      obtain ⟨hseparate, hjoined⟩ := findOpt_name hname
      -- An option is found with its value behind an equals sign, or with the argument that follows.
      have hnext : ∃ next, setOpt bits config o text = .ok next ∧
          appConfigParse build bits next (items.flatMap Item.render) = .ret 0 config' printed := by
        cases joined with
        | false => exact exists_setOpt_of_parse hflags hseparate (.inr ⟨rfl, rfl⟩) h
        | true =>
          refine exists_setOpt_of_parse (fun hflag ↦ ?_) (hjoined text) (.inl ⟨rfl, rfl⟩) h
          exact notMem_of_mem_flags _ hflag (List.mem_append_right _ List.mem_cons_self)
      obtain ⟨next, hset, hrest⟩ := hnext
      refine exec_cons_of_step ?_ (ih hrest)
      rw [Item.apply, hset]
      rfl

/-! ### Numbers -/

/-- **What `parse_long` accepts**: a numeral that is not negative, as far as a `long` can hold it, and the empty
text. -/
theorem parseLong_eq_ok_iff {text name : List UInt8} {r : ℤ} :
    parseLong bits text name = .ok r ↔
      text = [] ∧ r = 0 ∨ ∃ z, Numeral text z ∧ 0 ≤ z ∧ r = min z (2 ^ (bits - 1) - 1) := by
  have hpow : (0 : ℤ) < 2 ^ (bits - 1) := Int.pow_pos (by decide)
  rw [parseLong]
  constructor
  · intro h
    split_ifs at h with hreject
    obtain rfl := Except.ok.inj h
    obtain ⟨hrest, hneg⟩ := not_or.1 hreject
    rcases strtolRest_eq_nil_iff.1 (not_not.1 hrest) with rfl | ⟨z, hz⟩
    · exact .inl ⟨rfl, rfl⟩
    · rw [hz.strtolLong_eq.2, Option.getD_some, clampLong] at hneg ⊢
      refine .inr ⟨z, hz, ?_, ?_⟩ <;> split_ifs at hneg ⊢ <;> omega
  · rintro (⟨rfl, rfl⟩ | ⟨z, hz, hnonneg, rfl⟩)
    · rfl
    · have hclamp : clampLong bits z = min z (2 ^ (bits - 1) - 1) := if_neg (Int.not_lt.2 hnonneg)
      rw [hz.strtolLong_eq.2, Option.getD_some, hclamp, if_neg]
      rintro (hrest | hneg)
      · exact hrest hz.strtolLong_eq.1
      · omega

/-- A cast keeps the number modulo the size of the type. -/
theorem toNat_ofInt_emod (r : ℤ) :
    (UInt32.ofInt r).toNat = (r % 2 ^ 32).toNat ∧ (UInt16.ofInt r).toNat = (r % 2 ^ 16).toNat := by
  constructor
  · rw [UInt32.ofInt]
    exact Nat.mod_eq_of_lt (show (r % 2 ^ 32).toNat < 2 ^ 32 by omega)
  · rw [UInt16.ofInt]
    exact Nat.mod_eq_of_lt (show (r % 2 ^ 16).toNat < 2 ^ 16 by omega)

/-- A field holds a number modulo its size. -/
theorem number_setNumber (config : AppConfig) (o : NumberOpt) (r : ℤ) :
    (config.setNumber o r).number o = (r % 2 ^ o.size).toNat := by
  cases o <;> first | exact (toNat_ofInt_emod r).1 | exact (toNat_ofInt_emod r).2

theorem number_setNumber_of_ne (config : AppConfig) {o o' : NumberOpt} (h : o' ≠ o) (r : ℤ) :
    (config.setNumber o' r).number o = config.number o := by
  cases o' <;> cases o <;> first | rfl | exact absurd rfl h

theorem number_setText (config : AppConfig) (o : NumberOpt) (o' : TextOpt) (text : List UInt8) :
    (config.setText o' text).number o = config.number o := by
  cases o' <;> cases o <;> rfl

/-- What a number holds is made of a text. -/
def ReadFrom (bits : ℕ) (config : AppConfig) (o : NumberOpt) (text : List UInt8) : Prop :=
  ∃ r, parseLong bits text o.name = .ok r ∧ config.number o = (r % 2 ^ o.size).toNat

/-- An item sets the number that it gives a text to, and no other one. -/
theorem number_apply {item : Item} {next : AppConfig} (h : item.apply bits config = some next) (o : NumberOpt) :
    (item.textOf o = none ∧ next.number o = config.number o) ∨
      ∃ text, item.textOf o = some text ∧ ReadFrom bits next o text := by
  cases item with
  | test long =>
    obtain rfl := Option.some.inj h
    exact .inl ⟨rfl, by cases o <;> rfl⟩
  | verbose long =>
    obtain rfl := Option.some.inj h
    exact .inl ⟨rfl, by cases o <;> rfl⟩
  | value o' name joined text =>
    rw [Item.apply] at h
    rw [Item.textOf]
    rcases o' with o' | o'
    · rw [setOpt] at h
      split_ifs at h
      · exact absurd h.symm (Option.some_ne_none next)
      · obtain rfl := Option.some.inj h
        exact .inl ⟨if_neg Opt.noConfusion, number_setText config o o' text⟩
    · rw [setOpt] at h
      rcases hparse : parseLong bits text o'.name with message | r
      · rw [hparse] at h
        exact absurd h.symm (Option.some_ne_none next)
      · rw [hparse] at h
        obtain rfl := Option.some.inj h
        rcases eq_or_ne o' o with rfl | hne
        · exact .inr ⟨text, if_pos rfl, r, hparse, number_setNumber config o' r⟩
        · exact .inl ⟨if_neg fun h ↦ hne (Opt.number.inj h), number_setNumber_of_ne config hne r⟩

theorem lastText_append_singleton (o : NumberOpt) (items : List Item) (item : Item) :
    lastText o (items ++ [item]) = (item.textOf o).or (lastText o items) := by
  rw [lastText, lastText, List.filterMap_append, List.filterMap_cons, List.filterMap_nil]
  cases item.textOf o with
  | none => rw [List.append_nil, Option.none_or]
  | some text => rw [List.getLast?_append, List.getLast?_singleton]

/-- **What a number holds in the end**: the last text for it, or what it held at the beginning. -/
theorem number_exec (h : exec (Item.apply bits) config items = some config') (o : NumberOpt) :
    (lastText o items = none ∧ config'.number o = config.number o) ∨
      ∃ text, lastText o items = some text ∧ ReadFrom bits config' o text := by
  induction items using List.reverseRecOn generalizing config' with
  | nil =>
    obtain rfl := Option.some.inj h
    exact .inl ⟨rfl, rfl⟩
  | append_singleton items item ih =>
    obtain ⟨next, hnext, happly⟩ := exists_of_exec_snoc h
    rw [lastText_append_singleton]
    rcases number_apply happly o with ⟨hnone, hsame⟩ | ⟨text, hsome, htext⟩
    · have hbefore := ih hnext
      simp only [ReadFrom] at hbefore ⊢
      rw [hnone, Option.none_or, hsame]
      exact hbefore
    · rw [hsome, Option.some_or]
      exact .inr ⟨text, rfl, htext⟩

/-- **When a field has the value of its text**: the value fits the type of the field and a `long`. -/
theorem numeral_number_iff {o : NumberOpt} {text : List UInt8} (h : ReadFrom bits config o text) :
    Numeral text (config.number o) ↔ ∃ z, Numeral text z ∧ z < 2 ^ o.size ∧ z < 2 ^ (bits - 1) := by
  obtain ⟨r, hparse, hnumber⟩ := h
  have hsize : (0 : ℤ) < 2 ^ o.size := Int.pow_pos (by decide)
  have hlong : (0 : ℤ) < 2 ^ (bits - 1) := Int.pow_pos (by decide)
  have hmod := Int.emod_nonneg r (Int.ne_of_gt hsize)
  have hlt := Int.emod_lt_of_pos r hsize
  have hr := parseLong_eq_ok_iff.1 hparse
  constructor
  · intro hnumeral
    refine ⟨_, hnumeral, by omega, ?_⟩
    rcases hr with ⟨rfl, -⟩ | ⟨z, hz, hnonneg, rfl⟩
    · exact absurd hnumeral not_numeral_nil
    · -- What is left of a number is no larger than the number.
      rcases Int.lt_or_le (min z (2 ^ (bits - 1) - 1)) (2 ^ o.size) with hfits | hlarge
      · rw [Int.emod_eq_of_lt (by omega) hfits] at hnumber
        omega
      · omega
  · rintro ⟨z, hz, hfield, hbits⟩
    rcases hr with ⟨rfl, -⟩ | ⟨z', hz', hnonneg, rfl⟩
    · exact absurd hz not_numeral_nil
    · obtain rfl := hz.unique hz'
      have hmin : min z (2 ^ (bits - 1) - 1) = z := by omega
      rw [hmin, Int.emod_eq_of_lt hnonneg hfield] at hnumber
      rwa [hnumber, Int.toNat_of_nonneg hnonneg]

/-! ### Sums and products -/

/-- A conversion to a signed number of 32 bits. -/
theorem toInt_toInt32_eq_iff {n : UInt32} {m : ℕ} (hn : n.toNat = m % 2 ^ 32) :
    n.toInt32.toInt = m ↔ m < 2 ^ 31 := by
  have hcond : n.toInt32.toInt = if 2 * n.toNat < 2 ^ 32 then (n.toNat : ℤ) else n.toNat - 2 ^ 32 :=
    BitVec.toInt_eq_toNat_cond n.toBitVec
  rw [hcond]
  split_ifs <;> omega

/-- The port of a session is the sum as long as it is a port. -/
theorem toNat_udpPort_iff : (∀ slot < 8, (config.udpPort slot).toNat = config.udpBasePort.toNat + slot) ↔
    config.udpBasePort.toNat + 7 < 2 ^ 16 := by
  have hmod : ∀ slot, (config.udpPort slot).toNat = (config.udpBasePort.toNat + slot) % 2 ^ 16 := fun slot ↦
    UInt16.toNat_ofNat'
  constructor
  · intro h
    have hlast := h 7 (by decide)
    rw [hmod] at hlast
    omega
  · intro h slot hslot
    rw [hmod]
    omega

/-- The GOP size is the product unless the product has 31 bits and more. -/
theorem gopFrames_iff : config.gopFrames.toInt = config.fps.toNat * config.keyframeSeconds.toNat ↔
    config.fps.toNat * config.keyframeSeconds.toNat < 2 ^ 31 := by
  rw [← Int.natCast_mul]
  exact toInt_toInt32_eq_iff (UInt32.toNat_mul _ _)

/-- The bitrate is in bits per second unless that has 31 bits and more. -/
theorem bitrate_iff : config.bitrate.toInt = config.bitrateKbps.toNat * 1000 ↔
    config.bitrateKbps.toNat * 1000 < 2 ^ 31 :=
  toInt_toInt32_eq_iff (UInt32.toNat_mul _ _)

/-- The fields have the values that are given if the texts fit. -/
theorem forall_given_number_iff {default : AppConfig} (h : exec (Item.apply bits) default items = some config) :
    (∀ o, Given items default o (config.number o)) ↔
      ∀ o text, lastText o items = some text → ∃ z, Numeral text z ∧ z < 2 ^ o.size ∧ z < 2 ^ (bits - 1) := by
  refine forall_congr' fun o ↦ ?_
  rw [Given]
  rcases number_exec h o with ⟨hnone, hsame⟩ | ⟨text, hsome, htext⟩
  · rw [hnone, hsame]
    exact iff_of_true rfl fun text h ↦ absurd h.symm (Option.some_ne_none text)
  · rw [hsome]
    constructor
    · intro hnumeral text' h
      obtain rfl := Option.some.inj h
      exact (numeral_number_iff htext).1 hnumeral
    · exact fun hall ↦ (numeral_number_iff htext).2 (hall text rfl)

/-- **No number wraps around** between the command line and its use, exactly if the values that are given fit. -/
theorem noSilentWrap_iff {initial : AppConfig}
    (h : appConfigParse build bits (appConfigDefaults build initial) args = .ret 0 config printed) :
    (∃ items : List Item, args = items.flatMap Item.render) ∧
      ∀ items : List Item, args = items.flatMap Item.render →
        (NoSilentWrap items (appConfigDefaults build initial) config ↔
          ValuesFit bits items (appConfigDefaults build initial)) := by
  refine ⟨exists_items_of_parse h, ?_⟩
  rintro items rfl
  have hnumbers := forall_given_number_iff (exec_of_parse h)
  -- Both sides have `hnumber`, so that the sums and products are those of the numbers in the texts.
  constructor
  · rintro ⟨hnumber, hudp, hgop, hbitrate⟩
    refine ⟨hnumbers.1 hnumber, fun z hz ↦ ?_, fun f k hf hk ↦ ?_, fun z hz ↦ ?_⟩
    · obtain rfl := (hnumber .udpPort).unique hz
      have hlt := toNat_udpPort_iff.1 hudp
      show (config.udpBasePort.toNat : ℤ) + 7 < 2 ^ 16
      omega
    · obtain rfl := (hnumber .fps).unique hf
      obtain rfl := (hnumber .keyframe).unique hk
      have hlt := gopFrames_iff.1 hgop
      show (config.fps.toNat * config.keyframeSeconds.toNat : ℤ) < 2 ^ 31
      rw [← Int.natCast_mul]
      omega
    · obtain rfl := (hnumber .bitrate).unique hz
      have hlt := bitrate_iff.1 hbitrate
      show (config.bitrateKbps.toNat : ℤ) * 1000 < 2 ^ 31
      omega
  · rintro ⟨htext, hudp, hgop, hbitrate⟩
    have hnumber := hnumbers.2 htext
    refine ⟨hnumber, toNat_udpPort_iff.2 ?_, gopFrames_iff.2 ?_, bitrate_iff.2 ?_⟩
    · have hlt : (config.udpBasePort.toNat : ℤ) + 7 < 2 ^ 16 := hudp _ (hnumber .udpPort)
      omega
    · have hlt : (config.fps.toNat * config.keyframeSeconds.toNat : ℤ) < 2 ^ 31 :=
        hgop _ _ (hnumber .fps) (hnumber .keyframe)
      rw [← Int.natCast_mul] at hlt
      omega
    · have hlt : (config.bitrateKbps.toNat : ℤ) * 1000 < 2 ^ 31 := hbitrate _ (hnumber .bitrate)
      omega

/-- A configuration before the defaults. -/
def blankConfig : AppConfig :=
  ⟨[], false, 0, 0, 0, [], 0, 0, 0, 0, [], [], 0, 0, 0, [], false⟩

/-- `-t`, and a port in one of the spellings. -/
def portItems (name : {name // name ∈ Opt.names (.number .httpPort)}) (joined : Bool) (port : ℕ) : List Item :=
  [.test false, .value (.number .httpPort) name joined (decimal port)]

theorem noSilentWrap_iff_sample : NoSilentWrap (portItems ⟨ascii "-p", by decide⟩ false 8081)
    (appConfigDefaults .native blankConfig)
    { appConfigDefaults .native blankConfig with useTestSource := true, httpPort := 8081 } := by
  have h : appConfigParse .native 64 (appConfigDefaults .native blankConfig)
      ((portItems ⟨ascii "-p", by decide⟩ false 8081).flatMap Item.render) = .ret 0
        { appConfigDefaults .native blankConfig with useTestSource := true, httpPort := 8081 } [] := by
    decide +kernel
  refine ((noSilentWrap_iff h).2 _ rfl).2 ⟨fun o text hlast ↦ ?_, fun z hz ↦ ?_, fun f k hf hk ↦ ?_,
    fun z hz ↦ ?_⟩
  · have htext : (if o = .httpPort then some (decimal 8081) else none) = some text := by
      rw [← hlast]
      cases o <;> rfl
    split_ifs at htext with ho
    obtain rfl := Option.some.inj htext
    exact ⟨_, numeral_decimal 8081, by rw [ho]; decide, by decide⟩
  · have hz : z = 50000 := hz
    omega
  · have hf : f = 30 := hf
    have hk : k = 2 := hk
    rw [hf, hk]
    decide
  · have hz : z = 2500 := hz
    omega

/-- A port beyond `2 ^ 16` becomes another port. -/
theorem not_noSilentWrap : ¬ ∀ (build : Build) (bits : ℕ) (initial : AppConfig) (args : List (List UInt8))
    (config : AppConfig) (printed : List UInt8),
    appConfigParse build bits (appConfigDefaults build initial) args = .ret 0 config printed →
      ∀ items : List Item, args = items.flatMap Item.render →
        NoSilentWrap items (appConfigDefaults build initial) config := by
  intro hall
  have h : appConfigParse .native 64 (appConfigDefaults .native blankConfig)
      ((portItems ⟨ascii "--http-port", by decide⟩ true 73616).flatMap Item.render) =
        .ret 0 { appConfigDefaults .native blankConfig with useTestSource := true } [] := by
    decide +kernel
  have hwrap := hall _ _ _ _ _ _ h _ rfl
  exact absurd ((hwrap.number .httpPort).unique (numeral_decimal 73616)) (by decide)

end Camstream
