/-
  DeclGraph — shortcodes.

  A shortcode is the name of a picture between two colons.  The table holds the
  names of one word; letter case does not count.

  * `Display.picture?` is the picture of a name;
  * `Display.drawShortcodes` puts pictures in the place of shortcodes.
-/
import DeclGraph.Text.Basic
import DeclGraph.Text.Blank
import DeclGraph.Text.Case

namespace DeclGraph.Display

/-- Lines of names, each followed by its picture. -/
def pictureLines : List String :=
  ["100=💯 1234=🔢 8ball=🎱 a=🅰 ab=🆎 abacus=🧮 abc=🔤 abcd=🔡 accept=🉑 adult=🧑 afghanistan=🇦🇫",
    "airplane=✈ albania=🇦🇱 alembic=⚗ algeria=🇩🇿 alien=👽 ambulance=🚑 amphora=🏺 anchor=⚓",
    "andorra=🇦🇩 angel=👼 anger=💢 angola=🇦🇴 angry=😠 anguilla=🇦🇮 anguished=😧 ant=🐜",
    "antarctica=🇦🇶 apple=🍎 aquarius=♒ argentina=🇦🇷 aries=♈ armenia=🇦🇲 art=🎨 aruba=🇦🇼",
    "astonished=😲 atm=🏧 australia=🇦🇺 austria=🇦🇹 automobile=🚗 avocado=🥑 axe=🪓 azerbaijan=🇦🇿",
    "b=🅱 baby=👶 back=🔙 bacon=🥓 badger=🦡 badminton=🏸 bagel=🥯 bahamas=🇧🇸 bahrain=🇧🇭 bald=🦲",
    "balloon=🎈 bamboo=🎍 banana=🍌 bangbang=‼ bangladesh=🇧🇩 banjo=🪕 bank=🏦 barbados=🇧🇧",
    "barber=💈 baseball=⚾ basket=🧺 basketball=🏀 bat=🦇 bath=🛀 bathtub=🛁 battery=🔋 bear=🐻",
    "bed=🛏 bee=🐝 beer=🍺 beers=🍻 beetle=🐞 beginner=🔰 belarus=🇧🇾 belgium=🇧🇪 belize=🇧🇿 bell=🔔",
    "benin=🇧🇯 bento=🍱 bermuda=🇧🇲 bhutan=🇧🇹 bicycle=🚲 bicyclist=🚴 bike=🚲 bikini=👙 biohazard=☣",
    "bird=🐦 birthday=🎂 blossom=🌼 blowfish=🐡 blush=😊 boar=🐗 boat=⛵ bolivia=🇧🇴 bomb=💣",
    "bone=🦴 book=📖 bookmark=🔖 books=📚 boom=💥 boot=👢 botswana=🇧🇼 bouquet=💐 bow=🙇",
    "bowling=🎳 boy=👦 brain=🧠 brazil=🇧🇷 bread=🍞 brick=🧱 briefcase=💼 briefs=🩲 broccoli=🥦",
    "broom=🧹 brunei=🇧🇳 bug=🐛 bulb=💡 bulgaria=🇧🇬 burrito=🌯 burundi=🇧🇮 bus=🚌 busstop=🚏",
    "butter=🧈 butterfly=🦋 cactus=🌵 cake=🍰 calendar=📆 calling=📲 cambodia=🇰🇭 camel=🐫",
    "camera=📷 cameroon=🇨🇲 camping=🏕 canada=🇨🇦 cancer=♋ candle=🕯 candy=🍬 canoe=🛶 capricorn=♑",
    "car=🚗 carrot=🥕 castle=🏰 cat=🐱 cat2=🐈 cd=💿 chad=🇹🇩 chains=⛓ chair=🪑 chart=💹",
    "cherries=🍒 chestnut=🌰 chicken=🐔 child=🧒 chile=🇨🇱 china=🇨🇳 chipmunk=🐿 chopsticks=🥢",
    "church=⛪ cigarette=🚬 cinema=🎦 cityscape=🏙 cl=🆑 clamp=🗜 clap=👏 clapper=🎬 clipboard=📋",
    "clock1=🕐 clock10=🕙 clock1030=🕥 clock11=🕚 clock1130=🕦 clock12=🕛 clock1230=🕧",
    "clock130=🕜 clock2=🕑 clock230=🕝 clock3=🕒 clock330=🕞 clock4=🕓 clock430=🕟 clock5=🕔",
    "clock530=🕠 clock6=🕕 clock630=🕡 clock7=🕖 clock730=🕢 clock8=🕗 clock830=🕣 clock9=🕘",
    "clock930=🕤 cloud=☁ clubs=♣ coat=🧥 cocktail=🍸 coconut=🥥 coffee=☕ coffin=⚰ collision=💥",
    "colombia=🇨🇴 comet=☄ comoros=🇰🇲 compass=🧭 compression=🗜 computer=💻 confounded=😖",
    "confused=😕 congratulations=㊗ construction=🚧 cookie=🍪 cooking=🍳 cool=🆒 cop=👮",
    "copyright=© corn=🌽 couple=👫 couplekiss=💏 cow=🐮 cow2=🐄 crab=🦀 crayon=🖍 cricket=🦗",
    "croatia=🇭🇷 crocodile=🐊 croissant=🥐 crown=👑 cry=😢 cuba=🇨🇺 cucumber=🥒 cupcake=🧁 cupid=💘",
    "curry=🍛 custard=🍮 customs=🛃 cyclone=🌀 cyprus=🇨🇾 czechia=🇨🇿 dagger=🗡 dancer=💃 dancers=👯",
    "dango=🍡 dart=🎯 dash=💨 date=📅 deer=🦌 denmark=🇩🇰 desert=🏜 detective=🕵 diamonds=♦",
    "disappointed=😞 dizzy=💫 djibouti=🇩🇯 dna=🧬 dog=🐶 dog2=🐕 dollar=💵 dolls=🎎 dolphin=🐬",
    "dominica=🇩🇲 door=🚪 doughnut=🍩 dove=🕊 dragon=🐉 dress=👗 droplet=💧 drum=🥁 duck=🦆",
    "dumpling=🥟 dvd=📀 eagle=🦅 ear=👂 ecuador=🇪🇨 egg=🍳 eggplant=🍆 egypt=🇪🇬 eight=8️⃣",
    "elephant=🐘 elf=🧝 email=✉ end=🔚 england=🏴󠁧󠁢󠁥󠁮󠁧󠁿 envelope=✉ eritrea=🇪🇷 estonia=🇪🇪",
    "ethiopia=🇪🇹 euro=💶 ewe=🐑 exclamation=❗ expressionless=😑 eye=👁 eyeglasses=👓 eyes=👀",
    "facepunch=👊 factory=🏭 fairy=🧚 falafel=🧆 family=👪 fax=📠 fearful=😨 feet=🐾 ferry=⛴",
    "fiji=🇫🇯 finland=🇫🇮 fire=🔥 firecracker=🧨 fireworks=🎆 fish=🐟 fist=✊ five=5️⃣ flags=🎏",
    "flamingo=🦩 flashlight=🔦 flipper=🐬 flushed=😳 fog=🌫 foggy=🌁 foot=🦶 football=🏈",
    "footprints=👣 fountain=⛲ four=4️⃣ france=🇫🇷 free=🆓 fries=🍟 frog=🐸 frowning=😦",
    "fuelpump=⛽ gabon=🇬🇦 gambia=🇬🇲 garlic=🧄 gear=⚙ gem=💎 gemini=♊ genie=🧞 georgia=🇬🇪",
    "germany=🇩🇪 ghana=🇬🇭 ghost=👻 gibraltar=🇬🇮 gift=🎁 giraffe=🦒 girl=👧 glasses=👓 gloves=🧤",
    "goat=🐐 goblin=👺 goggles=🥽 golf=⛳ golfer=🏌 gorilla=🦍 grapes=🍇 greece=🇬🇷 greenland=🇬🇱",
    "grenada=🇬🇩 grimacing=😬 grin=😁 grinning=😀 guadeloupe=🇬🇵 guam=🇬🇺 guard=💂 guardsman=💂",
    "guatemala=🇬🇹 guernsey=🇬🇬 guinea=🇬🇳 guitar=🎸 gun=🔫 guyana=🇬🇾 haircut=💇 haiti=🇭🇹",
    "hamburger=🍔 hammer=🔨 hamster=🐹 hand=✋ handbag=👜 handshake=🤝 hankey=💩 headphone=🎧",
    "headphones=🎧 heart=❤ heartbeat=💓 heartpulse=💗 hearts=♥ hedgehog=🦔 helicopter=🚁 herb=🌿",
    "hibiscus=🌺 hippopotamus=🦛 hocho=🔪 hole=🕳 honduras=🇭🇳 honeybee=🐝 horse=🐴 hospital=🏥",
    "hotel=🏨 hotsprings=♨ hourglass=⌛ house=🏠 houses=🏘 hungary=🇭🇺 hushed=😯 ice=🧊 icecream=🍦",
    "iceland=🇮🇸 id=🆔 imp=👿 india=🇮🇳 indonesia=🇮🇩 infinity=♾ information=ℹ innocent=😇",
    "interrobang=⁉ iphone=📱 iran=🇮🇷 iraq=🇮🇶 ireland=🇮🇪 israel=🇮🇱 italy=🇮🇹 jamaica=🇯🇲 japan=🗾",
    "jeans=👖 jersey=🇯🇪 jigsaw=🧩 joker=🃏 jordan=🇯🇴 joy=😂 joystick=🕹 kaaba=🕋 kangaroo=🦘",
    "kazakhstan=🇰🇿 kenya=🇰🇪 key=🔑 keyboard=⌨ kimono=👘 kiribati=🇰🇮 kiss=💋 kissing=😗 kite=🪁",
    "knife=🔪 koala=🐨 koko=🈁 kosovo=🇽🇰 kuwait=🇰🇼 kyrgyzstan=🇰🇬 label=🏷 lacrosse=🥍 lantern=🏮",
    "laos=🇱🇦 latvia=🇱🇻 laughing=😆 leaves=🍃 lebanon=🇱🇧 ledger=📒 leg=🦵 lemon=🍋 leo=♌",
    "leopard=🐆 lesotho=🇱🇸 liberia=🇱🇷 libra=♎ libya=🇱🇾 liechtenstein=🇱🇮 link=🔗 lips=👄",
    "lipstick=💄 lithuania=🇱🇹 lizard=🦎 llama=🦙 lobster=🦞 lock=🔒 locked=🔒 locomotive=🚂",
    "lollipop=🍭 loop=➿ loudspeaker=📢 luggage=🧳 luxembourg=🇱🇺 m=Ⓜ macedonia=🇲🇰 madagascar=🇲🇬",
    "mag=🔍 mage=🧙 magnet=🧲 mahjong=🀄 mailbox=📫 malawi=🇲🇼 malaysia=🇲🇾 maldives=🇲🇻 mali=🇲🇱",
    "malta=🇲🇹 man=👨 mango=🥭 martinique=🇲🇶 mask=😷 massage=💆 mate=🧉 mauritania=🇲🇷 mauritius=🇲🇺",
    "mayotte=🇾🇹 mega=📣 megaphone=📣 melon=🍈 memo=📝 menorah=🕎 mens=🚹 mermaid=🧜‍♀️",
    "merman=🧜‍♂️ merperson=🧜 metro=🚇 mexico=🇲🇽 microbe=🦠 micronesia=🇫🇲 microphone=🎤",
    "microscope=🔬 minibus=🚐 minidisc=💽 moai=🗿 moldova=🇲🇩 monaco=🇲🇨 moneybag=💰 mongolia=🇲🇳",
    "monkey=🐒 monorail=🚝 montenegro=🇲🇪 montserrat=🇲🇸 moon=🌔 morocco=🇲🇦 mosque=🕌 mosquito=🦟",
    "motorcycle=🏍 motorway=🛣 mountain=⛰ mouse=🐭 mouse2=🐁 mouth=👄 moyai=🗿 mozambique=🇲🇿",
    "muscle=💪 mushroom=🍄 mute=🔇 namibia=🇳🇦 nauru=🇳🇷 necktie=👔 nepal=🇳🇵 netherlands=🇳🇱 new=🆕",
    "newspaper=📰 ng=🆖 nicaragua=🇳🇮 niger=🇳🇪 nigeria=🇳🇬 nine=9️⃣ niue=🇳🇺 norway=🇳🇴 nose=👃",
    "notebook=📓 notes=🎶 o=⭕ o2=🅾 ocean=🌊 octopus=🐙 oden=🍢 office=🏢 ogre=👹 ok=🆗 om=🕉",
    "oman=🇴🇲 on=🔛 one=1️⃣ onion=🧅 ophiuchus=⛎ orangutan=🦧 otter=🦦 owl=🦉 ox=🐂 oyster=🦪",
    "package=📦 pager=📟 paintbrush=🖌 pakistan=🇵🇰 palau=🇵🇼 panama=🇵🇦 pancakes=🥞 paperclip=📎",
    "paraguay=🇵🇾 parking=🅿 parrot=🦜 peach=🍑 peacock=🦚 peanuts=🥜 pear=🍐 pen=🖊 pencil=📝",
    "pencil2=✏ penguin=🐧 pensive=😔 persevere=😣 peru=🇵🇪 philippines=🇵🇭 phone=☎ pick=⛏ pie=🥧",
    "pig=🐷 pig2=🐖 pill=💊 pineapple=🍍 pisces=♓ pistol=🔫 pizza=🍕 poland=🇵🇱 poodle=🐩 poop=💩",
    "popcorn=🍿 portugal=🇵🇹 postbox=📮 potato=🥔 pouch=👝 pound=💷 pray=🙏 pretzel=🥨 prince=🤴",
    "princess=👸 printer=🖨 prohibited=🚫 punch=👊 purse=👛 pushpin=📌 qatar=🇶🇦 question=❓",
    "rabbit=🐰 rabbit2=🐇 raccoon=🦝 racehorse=🐎 radio=📻 radioactive=☢ rage=😡 rainbow=🌈",
    "ram=🐏 ramen=🍜 rat=🐀 razor=🪒 receipt=🧾 recycle=♻ registered=® relaxed=☺ relieved=😌",
    "repeat=🔁 restroom=🚻 rewind=⏪ rhinoceros=🦏 ribbon=🎀 rice=🍚 ring=💍 robot=🤖 rocket=🚀",
    "romania=🇷🇴 rooster=🐓 rose=🌹 rosette=🏵 rowboat=🚣 runner=🏃 running=🏃 russia=🇷🇺 rwanda=🇷🇼",
    "sa=🈂 sagittarius=♐ sailboat=⛵ sake=🍶 salt=🧂 samoa=🇼🇸 sandal=👡 sandwich=🥪 santa=🎅",
    "sari=🥻 satellite=📡 satisfied=😆 sauropod=🦕 saxophone=🎷 scales=⚖ scarf=🧣 school=🏫",
    "scissors=✂ scorpio=♏ scorpion=🦂 scorpius=♏ scotland=🏴󠁧󠁢󠁳󠁣󠁴󠁿 scream=😱 scroll=📜 seat=💺",
    "secret=㊙ seedling=🌱 selfie=🤳 senegal=🇸🇳 serbia=🇷🇸 seven=7️⃣ seychelles=🇸🇨 shamrock=☘",
    "shark=🦈 sheep=🐑 shell=🐚 shield=🛡 ship=🚢 shirt=👕 shit=💩 shoe=👞 shortcake=🍰 shorts=🩳",
    "shower=🚿 shrimp=🦐 singapore=🇸🇬 six=6️⃣ skateboard=🛹 ski=🎿 skier=⛷ skis=🎿 skull=💀",
    "skunk=🦨 sled=🛷 sleeping=😴 sleepy=😪 sloth=🦥 slovakia=🇸🇰 slovenia=🇸🇮 smile=😄 smiley=😃",
    "smirk=😏 smoking=🚬 snail=🐌 snake=🐍 snowboarder=🏂 snowflake=❄ snowman=☃ soap=🧼 sob=😭",
    "soccer=⚽ socks=🧦 softball=🥎 somalia=🇸🇴 soon=🔜 sos=🆘 sound=🔉 spades=♠ spaghetti=🍝",
    "spain=🇪🇸 sparkle=❇ sparkler=🎇 sparkles=✨ speaker=🔈 speedboat=🚤 spider=🕷 sponge=🧽",
    "spoon=🥄 squid=🦑 stadium=🏟 star=⭐ star2=🌟 stars=🌠 station=🚉 stethoscope=🩺 stew=🍲",
    "stopwatch=⏱ strawberry=🍓 sudan=🇸🇩 sun=☀ sunflower=🌻 sunglasses=😎 sunny=☀ sunrise=🌅",
    "sunset=🌇 superhero=🦸 supervillain=🦹 surfer=🏄 suriname=🇸🇷 sushi=🍣 swan=🦢 swaziland=🇸🇿",
    "sweat=😓 sweden=🇸🇪 swimmer=🏊 switzerland=🇨🇭 symbols=🔣 synagogue=🕍 syria=🇸🇾 syringe=💉",
    "taco=🌮 tada=🎉 taiwan=🇹🇼 tajikistan=🇹🇯 tangerine=🍊 tanzania=🇹🇿 taurus=♉ taxi=🚕 tea=🍵",
    "telephone=☎ telescope=🔭 television=📺 ten=🔟 tennis=🎾 tent=⛺ thailand=🇹🇭 thermometer=🌡",
    "thread=🧵 three=3️⃣ thumbsdown=👎 thumbsup=👍 ticket=🎫 tiger=🐯 tiger2=🐅 tm=™ togo=🇹🇬",
    "toilet=🚽 tokelau=🇹🇰 tomato=🍅 tonga=🇹🇴 tongue=👅 toolbox=🧰 tooth=🦷 top=🔝 tophat=🎩",
    "tornado=🌪 trackball=🖲 tractor=🚜 train=🚋 train2=🚆 tram=🚊 trident=🔱 triumph=😤",
    "trolleybus=🚎 trophy=🏆 truck=🚚 trumpet=🎺 tshirt=👕 tulip=🌷 tunisia=🇹🇳 turkey=🦃",
    "turkmenistan=🇹🇲 turtle=🐢 tuvalu=🇹🇻 tv=📺 two=2️⃣ u5272=🈹 u5408=🈴 u55b6=🈺 u6307=🈯",
    "u6708=🈷 u6709=🈶 u6e80=🈵 u7121=🈚 u7533=🈸 u7981=🈲 u7a7a=🈳 uganda=🇺🇬 ukraine=🇺🇦",
    "umbrella=☂ unamused=😒 underage=🔞 unlock=🔓 unlocked=🔓 up=🆙 uruguay=🇺🇾 uzbekistan=🇺🇿 v=✌",
    "vampire=🧛 vanuatu=🇻🇺 venezuela=🇻🇪 vhs=📼 videocassette=📼 vietnam=🇻🇳 violin=🎻 virgo=♍",
    "volcano=🌋 volleyball=🏐 vs=🆚 waffle=🧇 wales=🏴󠁧󠁢󠁷󠁬󠁳󠁿 walking=🚶 warning=⚠ wastebasket=🗑",
    "watch=⌚ watermelon=🍉 wave=👋 wc=🚾 weary=😩 wedding=💒 whale=🐳 whale2=🐋 wheelchair=♿",
    "wink=😉 wolf=🐺 woman=👩 womens=🚺 worried=😟 wrench=🔧 x=❌ yarn=🧶 yemen=🇾🇪 yen=💴 yum=😋",
    "zambia=🇿🇲 zap=⚡ zebra=🦓 zero=0️⃣ zimbabwe=🇿🇼 zombie=🧟 zzz=💤"]

/-- The names with their pictures. -/
def pictures : List (List Char × List Char) :=
  (pictureLines.flatMap fun line => Text.splitAtChar ' ' line.toList).map fun entry =>
    (entry.takeWhile (· ≠ '='), (entry.dropWhile (· ≠ '=')).tail)

/-- The picture of a name, in text or picture style if the name says so. -/
def picture? (code : List Char) : Option (List Char) :=
  let styles := [("-emoji", '\ufe0f'), ("-text", '\ufe0e')]
  let named (name : List Char) : Option (List Char) :=
    pictures.lookup (Text.toLower (String.ofList name)).toList
  match styles.find? fun s => s.1.toList.isSuffixOf code with
  | some (ending, mark) => (named (code.take (code.length - ending.length))).map (· ++ [mark])
  | none => named code

/-- The characters up to a colon that follows without a blank, and what comes
    after it. -/
def untilColon? : List Char → Option (List Char × List Char)
  | [] => none
  | c :: cs =>
    if c = ':' then some ([], cs)
    else if Text.isBlank c then none
    else (untilColon? cs).map fun (code, rest) => (c :: code, rest)

/-- What comes after a colon is shorter. -/
theorem untilColon?_length {cs code rest : List Char} (h : untilColon? cs = some (code, rest)) :
    rest.length < cs.length := by
  induction cs generalizing code with
  | nil => simp [untilColon?] at h
  | cons c cs ih =>
    unfold untilColon? at h
    split at h
    · simp_all
    · split at h
      · simp at h
      · obtain ⟨⟨code', rest'⟩, h', e⟩ := Option.map_eq_some_iff.1 h
        obtain ⟨-, rfl⟩ := Prod.mk.inj e
        exact Nat.lt_succ_of_lt (ih h')

/-- Puts pictures in the place of shortcodes; a name that is not known stays with
    both of its colons. -/
def drawShortcodes : List Char → List Char
  | [] => []
  | c :: cs =>
    if c = ':' then
      match _h : untilColon? cs with
      | some (code, rest) =>
        ((picture? code).getD (':' :: code ++ [':'])) ++ drawShortcodes rest
      | none => c :: drawShortcodes cs
    else c :: drawShortcodes cs
termination_by cs => cs.length
decreasing_by
  all_goals simp_wf
  · have := untilColon?_length _h; omega

end DeclGraph.Display
