import EntryDoor.Calendar.Zone

namespace EntryDoor.Zone

-- Each zone by its offset at the start of 2010 and the changes of it through 2028, as seconds since
-- 1970-01-01T00:00:00Z with the offset from then on.
def utc : Zone := ⟨"UTC", 0, []⟩

def cairo : Zone := ⟨"Africa/Cairo", 7200, [
    (1272578400, 10800), (1281474000, 7200), (1284069600, 10800), (1285880400, 7200), (1400191200, 10800),
    (1403816400, 7200), (1406844000, 10800), (1411678800, 7200), (1682632800, 10800), (1698354000, 7200),
    (1714082400, 10800), (1730408400, 7200), (1745532000, 10800), (1761858000, 7200), (1776981600, 10800),
    (1793307600, 7200), (1809036000, 10800), (1824757200, 7200), (1840485600, 10800), (1856206800, 7200)]⟩

def casablanca : Zone := ⟨"Africa/Casablanca", 0, [
    (1272758400, 3600), (1281222000, 0), (1301788800, 3600), (1312066800, 0), (1335664800, 3600),
    (1342749600, 0), (1345428000, 3600), (1348970400, 0), (1367114400, 3600), (1373162400, 0),
    (1376100000, 3600), (1382839200, 0), (1396144800, 3600), (1403920800, 0), (1406944800, 3600),
    (1414288800, 0), (1427594400, 3600), (1434247200, 0), (1437271200, 3600), (1445738400, 0),
    (1459044000, 3600), (1465092000, 0), (1468116000, 3600), (1477792800, 0), (1490493600, 3600),
    (1495332000, 0), (1498960800, 3600), (1509242400, 0), (1521943200, 3600), (1526176800, 0),
    (1529200800, 3600), (1557021600, 0), (1560045600, 3600), (1587261600, 0), (1590890400, 3600),
    (1618106400, 0), (1621130400, 3600), (1648346400, 0), (1651975200, 3600), (1679191200, 0),
    (1682215200, 3600), (1710036000, 0), (1713060000, 3600), (1740276000, 0), (1743904800, 3600),
    (1771120800, 0), (1774144800, 3600), (1801965600, 0), (1804989600, 3600), (1832205600, 0),
    (1835834400, 3600)]⟩

def asuncion : Zone := ⟨"America/Asuncion", -10800, [
    (1270954800, -14400), (1286078400, -10800), (1302404400, -14400), (1317528000, -10800), (1333854000, -14400),
    (1349582400, -10800), (1364094000, -14400), (1381032000, -10800), (1395543600, -14400), (1412481600, -10800),
    (1426993200, -14400), (1443931200, -10800), (1459047600, -14400), (1475380800, -10800), (1490497200, -14400),
    (1506830400, -10800), (1521946800, -14400), (1538884800, -10800), (1553396400, -14400), (1570334400, -10800),
    (1584846000, -14400), (1601784000, -10800), (1616900400, -14400), (1633233600, -10800), (1648350000, -14400),
    (1664683200, -10800), (1679799600, -14400), (1696132800, -10800), (1711249200, -14400), (1728187200, -10800)]⟩

def havana : Zone := ⟨"America/Havana", -18000, [
    (1268542800, -14400), (1288501200, -18000), (1300597200, -14400), (1321160400, -18000), (1333256400, -14400),
    (1352005200, -18000), (1362891600, -14400), (1383454800, -18000), (1394341200, -14400), (1414904400, -18000),
    (1425790800, -14400), (1446354000, -18000), (1457845200, -14400), (1478408400, -18000), (1489294800, -14400),
    (1509858000, -18000), (1520744400, -14400), (1541307600, -18000), (1552194000, -14400), (1572757200, -18000),
    (1583643600, -14400), (1604206800, -18000), (1615698000, -14400), (1636261200, -18000), (1647147600, -14400),
    (1667710800, -18000), (1678597200, -14400), (1699160400, -18000), (1710046800, -14400), (1730610000, -18000),
    (1741496400, -14400), (1762059600, -18000), (1772946000, -14400), (1793509200, -18000), (1805000400, -14400),
    (1825563600, -18000), (1836450000, -14400), (1857013200, -18000)]⟩

def newYork : Zone := ⟨"America/New_York", -18000, [
    (1268550000, -14400), (1289109600, -18000), (1299999600, -14400), (1320559200, -18000), (1331449200, -14400),
    (1352008800, -18000), (1362898800, -14400), (1383458400, -18000), (1394348400, -14400), (1414908000, -18000),
    (1425798000, -14400), (1446357600, -18000), (1457852400, -14400), (1478412000, -18000), (1489302000, -14400),
    (1509861600, -18000), (1520751600, -14400), (1541311200, -18000), (1552201200, -14400), (1572760800, -18000),
    (1583650800, -14400), (1604210400, -18000), (1615705200, -14400), (1636264800, -18000), (1647154800, -14400),
    (1667714400, -18000), (1678604400, -14400), (1699164000, -18000), (1710054000, -14400), (1730613600, -18000),
    (1741503600, -14400), (1762063200, -18000), (1772953200, -14400), (1793512800, -18000), (1805007600, -14400),
    (1825567200, -18000), (1836457200, -14400), (1857016800, -18000)]⟩

def saoPaulo : Zone := ⟨"America/Sao_Paulo", -7200, [
    (1266717600, -10800), (1287284400, -7200), (1298167200, -10800), (1318734000, -7200), (1330221600, -10800),
    (1350788400, -7200), (1361066400, -10800), (1382238000, -7200), (1392516000, -10800), (1413687600, -7200),
    (1424570400, -10800), (1445137200, -7200), (1456020000, -10800), (1476586800, -7200), (1487469600, -10800),
    (1508036400, -7200), (1518919200, -10800), (1541300400, -7200), (1550368800, -10800)]⟩

def stJohns : Zone := ⟨"America/St_Johns", -12600, [
    (1268537460, -9000), (1289097060, -12600), (1299987060, -9000), (1320553800, -12600), (1331443800, -9000),
    (1352003400, -12600), (1362893400, -9000), (1383453000, -12600), (1394343000, -9000), (1414902600, -12600),
    (1425792600, -9000), (1446352200, -12600), (1457847000, -9000), (1478406600, -12600), (1489296600, -9000),
    (1509856200, -12600), (1520746200, -9000), (1541305800, -12600), (1552195800, -9000), (1572755400, -12600),
    (1583645400, -9000), (1604205000, -12600), (1615699800, -9000), (1636259400, -12600), (1647149400, -9000),
    (1667709000, -12600), (1678599000, -9000), (1699158600, -12600), (1710048600, -9000), (1730608200, -12600),
    (1741498200, -9000), (1762057800, -12600), (1772947800, -9000), (1793507400, -12600), (1805002200, -9000),
    (1825561800, -12600), (1836451800, -9000), (1857011400, -12600)]⟩

def troll : Zone := ⟨"Antarctica/Troll", 0, [
    (1269738000, 7200), (1288486800, 0), (1301187600, 7200), (1319936400, 0), (1332637200, 7200),
    (1351386000, 0), (1364691600, 7200), (1382835600, 0), (1396141200, 7200), (1414285200, 0),
    (1427590800, 7200), (1445734800, 0), (1459040400, 7200), (1477789200, 0), (1490490000, 7200),
    (1509238800, 0), (1521939600, 7200), (1540688400, 0), (1553994000, 7200), (1572138000, 0),
    (1585443600, 7200), (1603587600, 0), (1616893200, 7200), (1635642000, 0), (1648342800, 7200),
    (1667091600, 0), (1679792400, 7200), (1698541200, 0), (1711846800, 7200), (1729990800, 0),
    (1743296400, 7200), (1761440400, 0), (1774746000, 7200), (1792890000, 0), (1806195600, 7200),
    (1824944400, 0), (1837645200, 7200), (1856394000, 0)]⟩

def beirut : Zone := ⟨"Asia/Beirut", 7200, [
    (1269727200, 10800), (1288472400, 7200), (1301176800, 10800), (1319922000, 7200), (1332626400, 10800),
    (1351371600, 7200), (1364680800, 10800), (1382821200, 7200), (1396130400, 10800), (1414270800, 7200),
    (1427580000, 10800), (1445720400, 7200), (1459029600, 10800), (1477774800, 7200), (1490479200, 10800),
    (1509224400, 7200), (1521928800, 10800), (1540674000, 7200), (1553983200, 10800), (1572123600, 7200),
    (1585432800, 10800), (1603573200, 7200), (1616882400, 10800), (1635627600, 7200), (1648332000, 10800),
    (1667077200, 7200), (1679781600, 10800), (1698526800, 7200), (1711836000, 10800), (1729976400, 7200),
    (1743285600, 10800), (1761426000, 7200), (1774735200, 10800), (1792875600, 7200), (1806184800, 10800),
    (1824930000, 7200), (1837634400, 10800), (1856379600, 7200)]⟩

def kathmandu : Zone := ⟨"Asia/Kathmandu", 20700, []⟩

def kolkata : Zone := ⟨"Asia/Kolkata", 19800, []⟩

def tehran : Zone := ⟨"Asia/Tehran", 12600, [
    (1269203400, 16200), (1285097400, 12600), (1300739400, 16200), (1316633400, 12600), (1332275400, 16200),
    (1348169400, 12600), (1363897800, 16200), (1379791800, 12600), (1395433800, 16200), (1411327800, 12600),
    (1426969800, 16200), (1442863800, 12600), (1458505800, 16200), (1474399800, 12600), (1490128200, 16200),
    (1506022200, 12600), (1521664200, 16200), (1537558200, 12600), (1553200200, 16200), (1569094200, 12600),
    (1584736200, 16200), (1600630200, 12600), (1616358600, 16200), (1632252600, 12600), (1647894600, 16200),
    (1663788600, 12600)]⟩

def azores : Zone := ⟨"Atlantic/Azores", -3600, [
    (1269738000, 0), (1288486800, -3600), (1301187600, 0), (1319936400, -3600), (1332637200, 0),
    (1351386000, -3600), (1364691600, 0), (1382835600, -3600), (1396141200, 0), (1414285200, -3600),
    (1427590800, 0), (1445734800, -3600), (1459040400, 0), (1477789200, -3600), (1490490000, 0),
    (1509238800, -3600), (1521939600, 0), (1540688400, -3600), (1553994000, 0), (1572138000, -3600),
    (1585443600, 0), (1603587600, -3600), (1616893200, 0), (1635642000, -3600), (1648342800, 0),
    (1667091600, -3600), (1679792400, 0), (1698541200, -3600), (1711846800, 0), (1729990800, -3600),
    (1743296400, 0), (1761440400, -3600), (1774746000, 0), (1792890000, -3600), (1806195600, 0),
    (1824944400, -3600), (1837645200, 0), (1856394000, -3600)]⟩

def lordHowe : Zone := ⟨"Australia/Lord_Howe", 39600, [
    (1270306800, 37800), (1286033400, 39600), (1301756400, 37800), (1317483000, 39600), (1333206000, 37800),
    (1349537400, 39600), (1365260400, 37800), (1380987000, 39600), (1396710000, 37800), (1412436600, 39600),
    (1428159600, 37800), (1443886200, 39600), (1459609200, 37800), (1475335800, 39600), (1491058800, 37800),
    (1506785400, 39600), (1522508400, 37800), (1538839800, 39600), (1554562800, 37800), (1570289400, 39600),
    (1586012400, 37800), (1601739000, 39600), (1617462000, 37800), (1633188600, 39600), (1648911600, 37800),
    (1664638200, 39600), (1680361200, 37800), (1696087800, 39600), (1712415600, 37800), (1728142200, 39600),
    (1743865200, 37800), (1759591800, 39600), (1775314800, 37800), (1791041400, 39600), (1806764400, 37800),
    (1822491000, 39600), (1838214000, 37800), (1853940600, 39600)]⟩

def sydney : Zone := ⟨"Australia/Sydney", 39600, [
    (1270310400, 36000), (1286035200, 39600), (1301760000, 36000), (1317484800, 39600), (1333209600, 36000),
    (1349539200, 39600), (1365264000, 36000), (1380988800, 39600), (1396713600, 36000), (1412438400, 39600),
    (1428163200, 36000), (1443888000, 39600), (1459612800, 36000), (1475337600, 39600), (1491062400, 36000),
    (1506787200, 39600), (1522512000, 36000), (1538841600, 39600), (1554566400, 36000), (1570291200, 39600),
    (1586016000, 36000), (1601740800, 39600), (1617465600, 36000), (1633190400, 39600), (1648915200, 36000),
    (1664640000, 39600), (1680364800, 36000), (1696089600, 39600), (1712419200, 36000), (1728144000, 39600),
    (1743868800, 36000), (1759593600, 39600), (1775318400, 36000), (1791043200, 39600), (1806768000, 36000),
    (1822492800, 39600), (1838217600, 36000), (1853942400, 39600)]⟩

def gmtMinus12 : Zone := ⟨"Etc/GMT+12", -43200, []⟩

def dublin : Zone := ⟨"Europe/Dublin", 0, [
    (1269738000, 3600), (1288486800, 0), (1301187600, 3600), (1319936400, 0), (1332637200, 3600),
    (1351386000, 0), (1364691600, 3600), (1382835600, 0), (1396141200, 3600), (1414285200, 0),
    (1427590800, 3600), (1445734800, 0), (1459040400, 3600), (1477789200, 0), (1490490000, 3600),
    (1509238800, 0), (1521939600, 3600), (1540688400, 0), (1553994000, 3600), (1572138000, 0),
    (1585443600, 3600), (1603587600, 0), (1616893200, 3600), (1635642000, 0), (1648342800, 3600),
    (1667091600, 0), (1679792400, 3600), (1698541200, 0), (1711846800, 3600), (1729990800, 0),
    (1743296400, 3600), (1761440400, 0), (1774746000, 3600), (1792890000, 0), (1806195600, 3600),
    (1824944400, 0), (1837645200, 3600), (1856394000, 0)]⟩

def london : Zone := ⟨"Europe/London", 0, [
    (1269738000, 3600), (1288486800, 0), (1301187600, 3600), (1319936400, 0), (1332637200, 3600),
    (1351386000, 0), (1364691600, 3600), (1382835600, 0), (1396141200, 3600), (1414285200, 0),
    (1427590800, 3600), (1445734800, 0), (1459040400, 3600), (1477789200, 0), (1490490000, 3600),
    (1509238800, 0), (1521939600, 3600), (1540688400, 0), (1553994000, 3600), (1572138000, 0),
    (1585443600, 3600), (1603587600, 0), (1616893200, 3600), (1635642000, 0), (1648342800, 3600),
    (1667091600, 0), (1679792400, 3600), (1698541200, 0), (1711846800, 3600), (1729990800, 0),
    (1743296400, 3600), (1761440400, 0), (1774746000, 3600), (1792890000, 0), (1806195600, 3600),
    (1824944400, 0), (1837645200, 3600), (1856394000, 0)]⟩

def vienna : Zone := ⟨"Europe/Vienna", 3600, [
    (1269738000, 7200), (1288486800, 3600), (1301187600, 7200), (1319936400, 3600), (1332637200, 7200),
    (1351386000, 3600), (1364691600, 7200), (1382835600, 3600), (1396141200, 7200), (1414285200, 3600),
    (1427590800, 7200), (1445734800, 3600), (1459040400, 7200), (1477789200, 3600), (1490490000, 7200),
    (1509238800, 3600), (1521939600, 7200), (1540688400, 3600), (1553994000, 7200), (1572138000, 3600),
    (1585443600, 7200), (1603587600, 3600), (1616893200, 7200), (1635642000, 3600), (1648342800, 7200),
    (1667091600, 3600), (1679792400, 7200), (1698541200, 3600), (1711846800, 7200), (1729990800, 3600),
    (1743296400, 7200), (1761440400, 3600), (1774746000, 7200), (1792890000, 3600), (1806195600, 7200),
    (1824944400, 3600), (1837645200, 7200), (1856394000, 3600)]⟩

def apia : Zone := ⟨"Pacific/Apia", -39600, [
    (1285498800, -36000), (1301752800, -39600), (1316872800, -36000), (1325239200, 50400), (1333202400, 46800),
    (1348927200, 50400), (1365256800, 46800), (1380376800, 50400), (1396706400, 46800), (1411826400, 50400),
    (1428156000, 46800), (1443276000, 50400), (1459605600, 46800), (1474725600, 50400), (1491055200, 46800),
    (1506175200, 50400), (1522504800, 46800), (1538229600, 50400), (1554559200, 46800), (1569679200, 50400),
    (1586008800, 46800), (1601128800, 50400), (1617458400, 46800)]⟩

def chatham : Zone := ⟨"Pacific/Chatham", 49500, [
    (1270303200, 45900), (1285423200, 49500), (1301752800, 45900), (1316872800, 49500), (1333202400, 45900),
    (1348927200, 49500), (1365256800, 45900), (1380376800, 49500), (1396706400, 45900), (1411826400, 49500),
    (1428156000, 45900), (1443276000, 49500), (1459605600, 45900), (1474725600, 49500), (1491055200, 45900),
    (1506175200, 49500), (1522504800, 45900), (1538229600, 49500), (1554559200, 45900), (1569679200, 49500),
    (1586008800, 45900), (1601128800, 49500), (1617458400, 45900), (1632578400, 49500), (1648908000, 45900),
    (1664028000, 49500), (1680357600, 45900), (1695477600, 49500), (1712412000, 45900), (1727532000, 49500),
    (1743861600, 45900), (1758981600, 49500), (1775311200, 45900), (1790431200, 49500), (1806760800, 45900),
    (1821880800, 49500), (1838210400, 45900), (1853330400, 49500)]⟩

def kiritimati : Zone := ⟨"Pacific/Kiritimati", 50400, []⟩

def pagoPago : Zone := ⟨"Pacific/Pago_Pago", -39600, []⟩

def all : List Zone := [
  utc, cairo, casablanca, asuncion, havana, newYork,
  saoPaulo, stJohns, troll, beirut, kathmandu, kolkata,
  tehran, azores, lordHowe, sydney, gmtMinus12, dublin,
  london, vienna, apia, chatham, kiritimati, pagoPago]

def named? (name : String) : Option Zone :=
  all.find? (·.name == name)

end EntryDoor.Zone
