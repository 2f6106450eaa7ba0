namespace LandUse.Text

structure Composite where
  whole : Nat
  first : Nat
  second : Nat

structure Alias where
  code : Nat
  meaning : Nat

def withMark (mark : Nat) (pairs : String) : List Composite := go pairs.toList
where
  go : List Char → List Composite
    | first :: whole :: rest => ⟨whole.toNat, first.toNat, mark⟩ :: go rest
    | _ => []

def aliasesFrom (code : Nat) (meanings : String) : List Alias :=
  (meanings.toList.zipIdx code).map fun (c, i) => ⟨i, c.toNat⟩

def markedLetters : List Composite :=
  withMark 0x300 ("AÀEÈIÌOÒUÙaàeèiìoòuùÜǛüǜNǸnǹЕЀИЍеѐиѝĒḔēḕŌṐōṑWẀwẁÂẦâầĂẰăằÊỀêềÔỒôồƠỜơờƯỪưừYỲyỳἀἂἁἃἈἊἉἋ" ++
    "ἐἒἑἓἘἚἙἛἠἢἡἣἨἪἩἫἰἲἱἳἸἺἹἻὀὂὁὃὈὊὉὋὐὒὑὓὙὛὠὢὡὣὨὪὩὫαὰεὲηὴιὶοὸυὺωὼΑᾺΕῈΗῊ᾿῍ϊῒΙῚ῾῝ϋῢΥῪ¨῭ΟῸΩῺ") ++
  withMark 0x301 ("AÁEÉIÍOÓUÚYÝaáeéiíoóuúyýCĆcćLĹlĺNŃnńRŔrŕSŚsśZŹzźÜǗüǘGǴgǵÅǺåǻÆǼæǽØǾøǿ¨΅ΑΆΕΈΗΉΙΊΟΌΥΎΩΏ" ++
    "ϊΐαάεέηήιίϋΰοόυύωώϒϓГЃКЌгѓкќÇḈçḉĒḖēḗÏḮïḯKḰkḱMḾmḿÕṌõṍŌṒōṓPṔpṕŨṸũṹWẂwẃÂẤâấĂẮăắÊẾêếÔỐôố" ++
    "ƠỚơớƯỨưứἀἄἁἅἈἌἉἍἐἔἑἕἘἜἙἝἠἤἡἥἨἬἩἭἰἴἱἵἸἼἹἽὀὄὁὅὈὌὉὍὐὔὑὕὙὝὠὤὡὥὨὬὩὭ᾿῎῾῞") ++
  withMark 0x302 "AÂEÊIÎOÔUÛaâeêiîoôuûCĈcĉGĜgĝHĤhĥJĴjĵSŜsŝWŴwŵYŶyŷZẐzẑẠẬạậẸỆẹệỌỘọộ" ++
  withMark 0x303 "AÃNÑOÕaãnñoõIĨiĩUŨuũVṼvṽÂẪâẫĂẴăẵEẼeẽÊỄêễÔỖôỗƠỠơỡƯỮưữYỸyỹ" ++
  withMark 0x304 ("AĀaāEĒeēIĪiīOŌoōUŪuūÜǕüǖÄǞäǟȦǠȧǡÆǢæǣǪǬǫǭÖȪöȫÕȬõȭȮȰȯȱYȲyȳИӢиӣУӮуӯGḠgḡḶḸḷḹṚṜṛṝαᾱΑᾹιῑΙῙ" ++
    "υῡΥῩ") ++
  withMark 0x306 "AĂaăEĔeĕGĞgğIĬiĭOŎoŏUŬuŭУЎИЙийуўЖӁжӂАӐаӑЕӖеӗȨḜȩḝẠẶạặαᾰΑᾸιῐΙῘυῠΥῨ" ++
  withMark 0x307 ("CĊcċEĖeėGĠgġIİZŻzżAȦaȧOȮoȯBḂbḃDḊdḋFḞfḟHḢhḣMṀmṁNṄnṅPṖpṗRṘrṙSṠsṡŚṤśṥŠṦšṧṢṨṣṩTṪtṫWẆwẇXẊ" ++
    "xẋYẎyẏſẛ") ++
  withMark 0x308 ("AÄEËIÏOÖUÜaäeëiïoöuüyÿYŸΙΪΥΫιϊυϋϒϔЕЁІЇеёіїАӒаӓӘӚәӛЖӜжӝЗӞзӟИӤиӥОӦоӧӨӪөӫЭӬэӭУӰуӱЧӴчӵЫӸ" ++
    "ыӹHḦhḧÕṎõṏŪṺūṻWẄwẅXẌxẍtẗ") ++
  withMark 0x309 "AẢaảÂẨâẩĂẲăẳEẺeẻÊỂêểIỈiỉOỎoỏÔỔôổƠỞơởUỦuủƯỬưửYỶyỷ" ++
  withMark 0x30A "AÅaåUŮuůwẘyẙ" ++
  withMark 0x30B "OŐoőUŰuűУӲуӳ" ++
  withMark 0x30C "CČcčDĎdďEĚeěLĽlľNŇnňRŘrřSŠsšTŤtťZŽzžAǍaǎIǏiǐOǑoǒUǓuǔÜǙüǚGǦgǧKǨkǩƷǮʒǯjǰHȞhȟ" ++
  withMark 0x30F "AȀaȁEȄeȅIȈiȉOȌoȍRȐrȑUȔuȕѴѶѵѷ" ++
  withMark 0x311 "AȂaȃEȆeȇIȊiȋOȎoȏRȒrȓUȖuȗ" ++
  withMark 0x313 "αἀΑἈεἐΕἘηἠΗἨιἰΙἸοὀΟὈυὐωὠΩὨρῤ" ++
  withMark 0x314 "αἁΑἉεἑΕἙηἡΗἩιἱΙἹοὁΟὉυὑΥὙωὡΩὩρῥΡῬ" ++
  withMark 0x31B "OƠoơUƯuư" ++
  withMark 0x323 "BḄbḅDḌdḍHḤhḥKḲkḳLḶlḷMṂmṃNṆnṇRṚrṛSṢsṣTṬtṭVṾvṿWẈwẉZẒzẓAẠaạEẸeẹIỊiịOỌoọƠỢơợUỤuụƯỰưựYỴyỵ" ++
  withMark 0x324 "UṲuṳ" ++
  withMark 0x325 "AḀaḁ" ++
  withMark 0x326 "SȘsșTȚtț" ++
  withMark 0x327 "CÇcçGĢgģKĶkķLĻlļNŅnņRŖrŗSŞsşTŢtţEȨeȩDḐdḑHḨhḩ" ++
  withMark 0x328 "AĄaąEĘeęIĮiįUŲuųOǪoǫ" ++
  withMark 0x32D "DḒdḓEḘeḙLḼlḽNṊnṋTṰtṱUṶuṷ" ++
  withMark 0x32E "HḪhḫ" ++
  withMark 0x330 "EḚeḛIḬiḭUṴuṵ" ++
  withMark 0x331 "BḆbḇDḎdḏKḴkḵLḺlḻNṈnṉRṞrṟTṮtṯZẔzẕhẖ" ++
  withMark 0x338 ("←↚→↛↔↮⇐⇍⇔⇎⇒⇏∃∄∈∉∋∌∣∤∥∦∼≁≃≄≅≇≈≉=≠≡≢≍≭<≮>≯≤≰≥≱≲≴≳≵≶≸≷≹≺⊀≻⊁⊂⊄⊃⊅⊆⊈⊇⊉⊢⊬⊨⊭⊩⊮⊫⊯≼⋠≽⋡⊑⋢⊒⋣⊲⋪⊳⋫" ++
    "⊴⋬⊵⋭") ++
  withMark 0x342 "ἀἆἁἇἈἎἉἏἠἦἡἧἨἮἩἯἰἶἱἷἸἾἹἿὐὖὑὗὙὟὠὦὡὧὨὮὩὯαᾶ¨῁ηῆ᾿῏ιῖϊῗ῾῟υῦϋῧωῶ" ++
  withMark 0x345 ("ἀᾀἁᾁἂᾂἃᾃἄᾄἅᾅἆᾆἇᾇἈᾈἉᾉἊᾊἋᾋἌᾌἍᾍἎᾎἏᾏἠᾐἡᾑἢᾒἣᾓἤᾔἥᾕἦᾖἧᾗἨᾘἩᾙἪᾚἫᾛἬᾜἭᾝἮᾞἯᾟὠᾠὡᾡὢᾢὣᾣὤᾤὥᾥὦᾦὧᾧὨᾨὩᾩ" ++
    "ὪᾪὫᾫὬᾬὭᾭὮᾮὯᾯὰᾲαᾳάᾴᾶᾷΑᾼὴῂηῃήῄῆῇΗῌὼῲωῳώῴῶῷΩῼ") ++
  withMark 0x3099 ("かがきぎくぐけげこごさざしじすずせぜそぞただちぢつづてでとどはばひびふぶへべほぼうゔゝゞカガキギクグケゲコゴサザシジスズセゼソゾタダチヂツヅテデトドハバヒビフブヘベホボ" ++
    "ウヴワヷヰヸヱヹヲヺヽヾ") ++
  withMark 0x309A "はぱひぴふぷへぺほぽハパヒピフプヘペホポ"

def composites : List Composite := markedLetters ++ [
  ⟨1570, 1575, 1619⟩, ⟨1571, 1575, 1620⟩, ⟨1572, 1608, 1620⟩, ⟨1573, 1575, 1621⟩,
  ⟨1574, 1610, 1620⟩, ⟨1728, 1749, 1620⟩, ⟨1730, 1729, 1620⟩, ⟨1747, 1746, 1620⟩,
  ⟨2345, 2344, 2364⟩, ⟨2353, 2352, 2364⟩, ⟨2356, 2355, 2364⟩, ⟨2507, 2503, 2494⟩,
  ⟨2508, 2503, 2519⟩, ⟨2888, 2887, 2902⟩, ⟨2891, 2887, 2878⟩, ⟨2892, 2887, 2903⟩,
  ⟨2964, 2962, 3031⟩, ⟨3018, 3014, 3006⟩, ⟨3019, 3015, 3006⟩, ⟨3020, 3014, 3031⟩,
  ⟨3144, 3142, 3158⟩, ⟨3264, 3263, 3285⟩, ⟨3271, 3270, 3285⟩, ⟨3272, 3270, 3286⟩,
  ⟨3274, 3270, 3266⟩, ⟨3275, 3274, 3285⟩, ⟨3402, 3398, 3390⟩, ⟨3403, 3399, 3390⟩,
  ⟨3404, 3398, 3415⟩, ⟨3546, 3545, 3530⟩, ⟨3548, 3545, 3535⟩, ⟨3549, 3548, 3530⟩,
  ⟨3550, 3545, 3551⟩, ⟨4134, 4133, 4142⟩, ⟨6918, 6917, 6965⟩, ⟨6920, 6919, 6965⟩,
  ⟨6922, 6921, 6965⟩, ⟨6924, 6923, 6965⟩, ⟨6926, 6925, 6965⟩, ⟨6930, 6929, 6965⟩,
  ⟨6971, 6970, 6965⟩, ⟨6973, 6972, 6965⟩, ⟨6976, 6974, 6965⟩, ⟨6977, 6975, 6965⟩,
  ⟨6979, 6978, 6965⟩, ⟨69786, 69785, 69818⟩, ⟨69788, 69787, 69818⟩, ⟨69803, 69797, 69818⟩,
  ⟨69934, 69937, 69927⟩, ⟨69935, 69938, 69927⟩, ⟨70475, 70471, 70462⟩, ⟨70476, 70471, 70487⟩,
  ⟨70843, 70841, 70842⟩, ⟨70844, 70841, 70832⟩, ⟨70846, 70841, 70845⟩, ⟨71098, 71096, 71087⟩,
  ⟨71099, 71097, 71087⟩, ⟨71992, 71989, 71984⟩]

def divided : List Composite := [
  ⟨836, 776, 769⟩, ⟨2392, 2325, 2364⟩, ⟨2393, 2326, 2364⟩, ⟨2394, 2327, 2364⟩, ⟨2395, 2332, 2364⟩,
  ⟨2396, 2337, 2364⟩, ⟨2397, 2338, 2364⟩, ⟨2398, 2347, 2364⟩, ⟨2399, 2351, 2364⟩,
  ⟨2524, 2465, 2492⟩, ⟨2525, 2466, 2492⟩, ⟨2527, 2479, 2492⟩, ⟨2611, 2610, 2620⟩,
  ⟨2614, 2616, 2620⟩, ⟨2649, 2582, 2620⟩, ⟨2650, 2583, 2620⟩, ⟨2651, 2588, 2620⟩,
  ⟨2654, 2603, 2620⟩, ⟨2908, 2849, 2876⟩, ⟨2909, 2850, 2876⟩, ⟨3907, 3906, 4023⟩,
  ⟨3917, 3916, 4023⟩, ⟨3922, 3921, 4023⟩, ⟨3927, 3926, 4023⟩, ⟨3932, 3931, 4023⟩,
  ⟨3945, 3904, 4021⟩, ⟨3955, 3953, 3954⟩, ⟨3957, 3953, 3956⟩, ⟨3958, 4018, 3968⟩,
  ⟨3960, 4019, 3968⟩, ⟨3969, 3953, 3968⟩, ⟨3987, 3986, 4023⟩, ⟨3997, 3996, 4023⟩,
  ⟨4002, 4001, 4023⟩, ⟨4007, 4006, 4023⟩, ⟨4012, 4011, 4023⟩, ⟨4025, 3984, 4021⟩,
  ⟨10972, 10973, 824⟩, ⟨64285, 1497, 1460⟩, ⟨64287, 1522, 1463⟩, ⟨64298, 1513, 1473⟩,
  ⟨64299, 1513, 1474⟩, ⟨64300, 64329, 1473⟩, ⟨64301, 64329, 1474⟩, ⟨64302, 1488, 1463⟩,
  ⟨64303, 1488, 1464⟩, ⟨64304, 1488, 1468⟩, ⟨64305, 1489, 1468⟩, ⟨64306, 1490, 1468⟩,
  ⟨64307, 1491, 1468⟩, ⟨64308, 1492, 1468⟩, ⟨64309, 1493, 1468⟩, ⟨64310, 1494, 1468⟩,
  ⟨64312, 1496, 1468⟩, ⟨64313, 1497, 1468⟩, ⟨64314, 1498, 1468⟩, ⟨64315, 1499, 1468⟩,
  ⟨64316, 1500, 1468⟩, ⟨64318, 1502, 1468⟩, ⟨64320, 1504, 1468⟩, ⟨64321, 1505, 1468⟩,
  ⟨64323, 1507, 1468⟩, ⟨64324, 1508, 1468⟩, ⟨64326, 1510, 1468⟩, ⟨64327, 1511, 1468⟩,
  ⟨64328, 1512, 1468⟩, ⟨64329, 1513, 1468⟩, ⟨64330, 1514, 1468⟩, ⟨64331, 1493, 1465⟩,
  ⟨64332, 1489, 1471⟩, ⟨64333, 1499, 1471⟩, ⟨64334, 1508, 1471⟩, ⟨119134, 119127, 119141⟩,
  ⟨119135, 119128, 119141⟩, ⟨119136, 119135, 119150⟩, ⟨119137, 119135, 119151⟩,
  ⟨119138, 119135, 119152⟩, ⟨119139, 119135, 119153⟩, ⟨119140, 119135, 119154⟩,
  ⟨119227, 119225, 119141⟩, ⟨119228, 119226, 119141⟩, ⟨119229, 119227, 119150⟩,
  ⟨119230, 119228, 119150⟩, ⟨119231, 119227, 119151⟩, ⟨119232, 119228, 119151⟩]

def ideographs : List Alias :=
  aliasesFrom 0xF900 ("豈更車賈滑串句龜龜契金喇奈懶癩羅蘿螺裸邏樂洛烙珞落酪駱亂卵欄爛蘭鸞嵐濫藍襤拉臘蠟廊朗浪狼郎" ++
    "來冷勞擄櫓爐盧老蘆虜路露魯鷺碌祿綠菉錄鹿論壟弄籠聾牢磊賂雷壘屢樓淚漏累縷陋勒肋凜凌稜綾菱陵" ++
    "讀拏樂諾丹寧怒率異北磻便復不泌數索參塞省葉說殺辰沈拾若掠略亮兩凉梁糧良諒量勵呂女廬旅濾礪閭" ++
    "驪麗黎力曆歷轢年憐戀撚漣煉璉秊練聯輦蓮連鍊列劣咽烈裂說廉念捻殮簾獵令囹寧嶺怜玲瑩羚聆鈴零靈" ++
    "領例禮醴隸惡了僚寮尿料樂燎療蓼遼龍暈阮劉杻柳流溜琉留硫紐類六戮陸倫崙淪輪律慄栗率隆利吏履易" ++
    "李梨泥理痢罹裏裡里離匿溺吝燐璘藺隣鱗麟林淋臨立笠粒狀炙識什茶刺切度拓糖宅洞暴輻行降見廓兀嗀") ++
  aliasesFrom 0xFA15 "凞猪益礼神祥福靖精羽" ++
  aliasesFrom 0xFA2A ("飯飼館鶴郞隷侮僧免勉勤卑喝嘆器塀墨層屮悔慨憎懲敏既暑梅海渚漢煮爫琢碑社祉祈祐祖祝禍禎穀突節" ++
    "練縉繁署者臭艹艹著褐視謁謹賓贈辶逸難響頻恵𤋮舘") ++
  aliasesFrom 0xFA70 ("並况全侀充冀勇勺喝啕喙嗢塚墳奄奔婢嬨廒廙彩徭惘慎愈憎慠懲戴揄搜摒敖晴朗望杖歹殺流滛滋漢瀞煮" ++
    "瞧爵犯猪瑱甆画瘝瘟益盛直睊着磌窱節类絛練缾者荒華蝹襁覆視調諸請謁諾諭謹變贈輸遲醙鉶陼難靖韛" ++
    "響頋頻鬒龜𢡊𢡄𣏕㮝䀘䀹𥉉𥳐𧻓齃龎") ++
  aliasesFrom 0x2F800 ("丽丸乁𠄢你侮侻倂偺備僧像㒞𠘺免兔兤具𠔜㒹內再𠕋冗冤仌冬况𩇟凵刃㓟刻剆割剷㔕勇勉勤勺包匆北卉" ++
    "卑博即卽卿卿卿𠨬灰及叟𠭣叫叱吆咞吸呈周咢哶唐啓啣善善喙喫喳嗂圖嘆圗噑噴切壮城埴堍型堲報墬𡓤" ++
    "売壷夆多夢奢𡚨𡛪姬娛娧姘婦㛮㛼嬈嬾嬾𡧈寃寘寧寳𡬘寿将当尢㞁屠屮峀岍𡷤嵃𡷦嵮嵫嵼巡巢㠯巽帨帽" ++
    "幩㡢𢆃㡼庰庳庶廊𪎒廾𢌱𢌱舁弢弢㣇𣊸𦇚形彫㣣徚忍志忹悁㤺㤜悔𢛔惇慈慌慎慌慺憎憲憤憯懞懲懶成戛" ++
    "扝抱拔捐𢬌挽拼捨掃揤𢯱搢揅掩㨮摩摾撝摷㩬敏敬𣀊旣書晉㬙暑㬈㫤冒冕最暜肭䏙朗望朡杞杓𣏃㭉柺枅" ++
    "桒梅𣑭梎栟椔㮝楂榣槪檨𣚣櫛㰘次𣢧歔㱎歲殟殺殻𣪍𡴋𣫺汎𣲼沿泍汧洖派海流浩浸涅𣴞洴港湮㴳滋滇𣻑" ++
    "淹潮𣽞𣾎濆瀹瀞瀛㶖灊災灷炭𠔥煅𤉣熜𤎫爨爵牐𤘈犀犕𤜵𤠔獺王㺬玥㺸㺸瑇瑜瑱璅瓊㼛甤𤰶甾𤲒異𢆟瘐" ++
    "𤾡𤾸𥁄㿼䀈直𥃳𥃲𥄙𥄳眞真真睊䀹瞋䁆䂖𥐝硎碌磌䃣𥘦祖𥚚𥛅福秫䄯穀穊穏𥥼𥪧𥪧竮䈂𥮫篆築䈧𥲀糒䊠" ++
    "糨糣紀𥾆絣䌁緇縂繅䌴𦈨𦉇䍙𦋙罺𦌾羕翺者𦓚𦔣聠𦖨聰𣍟䏕育脃䐋脾媵𦞧𦞵𣎓𣎜舁舄辞䑫芑芋芝劳花芳" ++
    "芽苦𦬼若茝荣莭茣莽菧著荓菊菌菜𦰶𦵫𦳕䔫蓱蓳蔖𧏊蕤𦼬䕝䕡𦾱𧃒䕫虐虜虧虩蚩蚈蜎蛢蝹蜨蝫螆䗗蟡蠁" ++
    "䗹衠衣𧙧裗裞䘵裺㒻𧢮𧥦䚾䛇誠諭變豕𧲨貫賁贛起𧼯𠠄跋趼跰𠣞軔輸𨗒𨗭邔郱鄑𨜮鄛鈸鋗鋘鉼鏹鐕𨯺開" ++
    "䦕閷𨵷䧦雃嶲霣𩅅𩈚䩮䩶韠𩐊䪲𩒖頋頋頩𩖶飢䬳餩馧駂駾䯎𩬰鬒鱀鳽䳎䳭鵧𪃎䳸𪄅𪈎𪊑麻䵖黹黾鼅鼏鼖" ++
    "鼻𪘀")

def aliases : List Alias := ideographs ++ [
  ⟨832, 768⟩, ⟨833, 769⟩, ⟨835, 787⟩, ⟨884, 697⟩, ⟨894, 59⟩, ⟨903, 183⟩, ⟨8049, 940⟩, ⟨8051, 941⟩,
  ⟨8053, 942⟩, ⟨8055, 943⟩, ⟨8057, 972⟩, ⟨8059, 973⟩, ⟨8061, 974⟩, ⟨8123, 902⟩, ⟨8126, 953⟩,
  ⟨8137, 904⟩, ⟨8139, 905⟩, ⟨8147, 912⟩, ⟨8155, 906⟩, ⟨8163, 944⟩, ⟨8171, 910⟩, ⟨8174, 901⟩,
  ⟨8175, 96⟩, ⟨8185, 908⟩, ⟨8187, 911⟩, ⟨8189, 180⟩, ⟨8192, 8194⟩, ⟨8193, 8195⟩, ⟨8486, 937⟩,
  ⟨8490, 75⟩, ⟨8491, 197⟩, ⟨9001, 12296⟩, ⟨9002, 12297⟩, ⟨64016, 22618⟩, ⟨64018, 26228⟩,
  ⟨64032, 34322⟩, ⟨64034, 35576⟩, ⟨64037, 36920⟩, ⟨64038, 37117⟩]

end LandUse.Text
